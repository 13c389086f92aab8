import QueryNotation.Number

/-! The text of a number determines it. Read as a JSON literal, whose digits are then taken for what
they are and not rounded, the text gives the number that was written: an integer has neither a point
nor an exponent, and a decimal has one of them. -/

namespace QueryNotation

/-- The number that a literal writes, without rounding. -/
def Number.Literal.exact (l : Literal) : Number :=
  match l.fraction, l.exponent with
  | none, none =>
    let n := Nat.ofDigitChars 10 l.whole 0
    .integer (if l.negative then -(n : Int) else n)
  | fraction, exponent =>
    let after := fraction.getD []
    let n := Nat.ofDigitChars 10 (l.whole ++ after) 0
    .double (.make l.negative n (exponent.getD 0 - after.length))

section Digits

theorem isDigit_toDigits (n : Nat) : ∀ c ∈ Nat.toDigits 10 n, c.isDigit :=
  fun _ => Nat.isDigit_of_mem_toDigits (by decide) (by decide)

theorem isDigit_zeros (k : Nat) : ∀ c ∈ List.replicate k '0', c.isDigit := by
  intro c hc
  rw [List.eq_of_mem_replicate hc]
  rfl

theorem head?_append_right {ds : List Char} (hne : ds ≠ []) (rest : List Char) :
    (ds ++ rest).head? = ds.head? := by
  rw [List.head?_append, List.head?_eq_some_head hne, Option.some_or]

/-- The digits of a number other than zero start with another digit. -/
theorem head?_toDigits {n : Nat} (hn : n ≠ 0) : (Nat.toDigits 10 n).head? ≠ some '0' := by
  induction n using Nat.strongRecOn with
  | ind n ih =>
    rcases Nat.lt_or_ge n 10 with hlt | hge
    · rw [Nat.toDigits_of_lt_base hlt, List.head?_singleton, ne_eq, Option.some.injEq,
        Nat.digitChar_eq_zero]
      exact hn
    · rw [Nat.toDigits_of_base_le (by decide) hge, head?_append_right Nat.toDigits_ne_nil]
      exact ih (n / 10) (by omega) (by omega)

end Digits

namespace Decimal

theorem stripZeros_ten_mul (n : Nat) (e : Int) : stripZeros (10 * n) e = stripZeros n (e + 1) := by
  by_cases hn : n = 0
  · subst hn
    rw [stripZeros, stripZeros, if_pos rfl, if_pos rfl]
  · rw [stripZeros, if_neg (by omega), if_pos (by omega), Nat.mul_div_cancel_left n (by decide)]

theorem make_ten_mul (negative : Bool) (n : Nat) (e : Int) :
    make negative (10 * n) e = make negative n (e + 1) := by
  simp only [make, stripZeros_ten_mul]

theorem make_append_zero (negative : Bool) (ds : List Char) (e : Int) :
    make negative (Nat.ofDigitChars 10 (ds ++ ['0']) 0) e =
      make negative (Nat.ofDigitChars 10 ds 0) (e + 1) := by
  rw [Nat.ofDigitChars_append]
  exact make_ten_mul negative _ e

/-- Zeros after the digits count as powers of ten. -/
theorem make_append_zeros (negative : Bool) (ds : List Char) (k : Nat) (e : Int) :
    make negative (Nat.ofDigitChars 10 (ds ++ List.replicate k '0') 0) e =
      make negative (Nat.ofDigitChars 10 ds 0) (e + k) := by
  induction k generalizing e with
  | zero => rw [List.replicate_zero, List.append_nil, Int.natCast_zero, Int.add_zero]
  | succ k ih =>
    rw [List.replicate_succ', ← List.append_assoc, make_append_zero, ih, Int.natCast_succ,
      Int.add_assoc, Int.add_comm 1]

theorem make_self (d : Decimal) : make d.negative d.digits d.exponent = d := by
  have hstrip : stripZeros d.digits d.exponent = (d.digits, d.exponent) := by
    rcases d.normal with h | ⟨hdigits, hexponent⟩
    · rw [stripZeros, if_neg (by omega), if_neg h]
    · rw [hdigits, hexponent, stripZeros, if_pos rfl]
  simp only [make, hstrip]

end Decimal

namespace Number.Literal

/-- Digits before a point: a zero alone, or digits that start with another digit. -/
inductive Whole : List Char → Prop
  | zero : Whole ['0']
  | digits {ds : List Char} (hne : ds ≠ []) (hhead : ds.head? ≠ some '0')
      (h : ∀ x ∈ ds, x.isDigit) : Whole ds

theorem Whole.isDigit {ds : List Char} (h : Whole ds) : ∀ x ∈ ds, x.isDigit := by
  cases h with
  | zero => simp
  | digits _ _ h => exact h

theorem Whole.of_toDigits (n : Nat) : Whole (Nat.toDigits 10 n) := by
  by_cases hn : n = 0
  · subst hn
    exact .zero
  · exact .digits Nat.toDigits_ne_nil (head?_toDigits hn) (isDigit_toDigits n)

section Reading

variable {ds rest : List Char} (hrest : ∀ c ∈ rest.head?, ¬ c.isDigit)

include hrest

theorem takeWhile_digits (h : ∀ x ∈ ds, x.isDigit) :
    (ds ++ rest).takeWhile Char.isDigit = ds ∧ (ds ++ rest).dropWhile Char.isDigit = rest := by
  rw [List.takeWhile_append_of_pos h, List.dropWhile_append_of_pos h]
  cases rest with
  | nil => exact ⟨List.append_nil ds, rfl⟩
  | cons c cs =>
    have hc : ¬ c.isDigit := hrest c rfl
    rw [List.takeWhile_cons_of_neg hc, List.dropWhile_cons_of_neg hc]
    exact ⟨List.append_nil ds, rfl⟩

theorem readWhole?_append (h : Whole ds) : readWhole? (ds ++ rest) = some (ds, rest) := by
  cases h with
  | zero => rfl
  | digits hne hhead h =>
    obtain ⟨htake, hdrop⟩ := takeWhile_digits hrest h
    unfold readWhole?
    split
    · rename_i heq
      rw [← head?_append_right hne rest, heq] at hhead
      exact absurd rfl hhead
    · dsimp only
      rw [htake, hdrop, List.isEmpty_eq_false_iff.mpr hne]
      rfl

theorem readFraction?_point (hne : ds ≠ []) (h : ∀ x ∈ ds, x.isDigit) :
    readFraction? ('.' :: (ds ++ rest)) = some (some ds, rest) := by
  obtain ⟨htake, hdrop⟩ := takeWhile_digits hrest h
  rw [readFraction?, htake, hdrop, List.isEmpty_eq_false_iff.mpr hne]
  rfl

end Reading

theorem readPower?_toDigits (negative : Bool) (n : Nat) :
    readPower? ((if negative then '-' else '+') :: Nat.toDigits 10 n) =
      some (if negative then -(n : Int) else n) := by
  have hdigits : (Nat.toDigits 10 n).all Char.isDigit := List.all_eq_true.mpr (isDigit_toDigits n)
  have hne : (Nat.toDigits 10 n).isEmpty = false :=
    List.isEmpty_eq_false_iff.mpr Nat.toDigits_ne_nil
  cases negative <;> simp [readPower?, hdigits, hne, Nat.ofDigitChars_ten_toDigits]

/-- A sign and whole digits are read first. -/
theorem read?_append (negative : Bool) {ds rest : List Char} (h : Whole ds)
    (hrest : ∀ c ∈ rest.head?, ¬ c.isDigit) :
    read? ((if negative then ['-'] else []) ++ (ds ++ rest)) = do
      let (fraction, cs) ← readFraction? rest
      let exponent ← readExponent? cs
      return ⟨negative, ds, fraction, exponent⟩ := by
  have hsign : readSign ((if negative then ['-'] else []) ++ (ds ++ rest)) =
      (negative, ds ++ rest) := by
    cases negative with
    | true => rfl
    | false =>
      cases ds with
      | nil => cases h; contradiction
      | cons c cs =>
        have hminus : c ≠ '-' := by
          rintro rfl
          exact absurd (h.isDigit _ List.mem_cons_self) (by decide)
        simp [readSign, hminus]
  rw [read?, hsign]
  simp only [readWhole?_append hrest h]
  rfl

end Number.Literal

namespace Decimal

open Number.Literal

variable (d : Decimal)

theorem whole_append_zeros : Whole (d.digitList ++ List.replicate d.exponent.toNat '0') := by
  rcases d.normal with hd | ⟨hd, hexponent⟩
  · have hne : d.digitList ≠ [] := Nat.toDigits_ne_nil
    refine .digits (by simp [hne]) ?_ ?_
    · rw [head?_append_right hne]
      exact head?_toDigits (by omega)
    · exact List.forall_mem_append.mpr ⟨isDigit_toDigits d.digits, isDigit_zeros _⟩
  · rw [digitList, hd, hexponent]
    exact .zero

theorem whole_take {k : Nat} (hk : 0 < k) : Whole (d.digitList.take k) := by
  have hne : d.digitList ≠ [] := Nat.toDigits_ne_nil
  by_cases hd : d.digits = 0
  · rw [digitList, hd, Nat.toDigits_zero, List.take_of_length_le hk]
    exact .zero
  · refine .digits (by simp [hne]; omega) ?_ ?_
    · rw [List.head?_take, if_neg (by omega)]
      exact head?_toDigits hd
    · intro x hx
      exact isDigit_toDigits d.digits x (List.mem_of_mem_take hx)

/-- A positional text has digits on both sides of its point. -/
theorem positional_eq : ∃ whole after, d.positional = whole ++ '.' :: after ∧ Whole whole ∧
    after ≠ [] ∧ (∀ x ∈ after, x.isDigit) ∧
    make d.negative (Nat.ofDigitChars 10 (whole ++ after) 0) (0 - after.length) = d := by
  have hisDigit := isDigit_toDigits d.digits
  unfold positional
  dsimp only
  split
  · rename_i h
    refine ⟨d.digitList ++ List.replicate d.exponent.toNat '0', ['0'], by simp,
      d.whole_append_zeros, List.cons_ne_nil _ _, by simp, ?_⟩
    have hexponent : (0 : Int) - ['0'].length + 1 + d.exponent.toNat = d.exponent := by
      rw [List.length_singleton]
      omega
    rw [make_append_zero, make_append_zeros, hexponent, digitList, Nat.ofDigitChars_ten_toDigits,
      make_self]
  · rename_i hexponent
    have hfirst : d.firstPower = d.exponent + d.digitList.length - 1 := rfl
    split
    · rename_i hpower
      refine ⟨_, _, rfl, d.whole_take (Nat.succ_pos _), ?_, ?_, ?_⟩
      · rw [ne_eq, List.drop_eq_nil_iff]
        omega
      · intro x hx
        exact hisDigit x (List.mem_of_mem_drop hx)
      · have hlength : (0 : Int) - (d.digitList.drop (d.firstPower.toNat + 1)).length =
            d.exponent := by
          rw [List.length_drop]
          omega
        rw [List.take_append_drop, hlength, digitList, Nat.ofDigitChars_ten_toDigits, make_self]
    · refine ⟨['0'], List.replicate (-d.firstPower - 1).toNat '0' ++ d.digitList, rfl, .zero, ?_,
        List.forall_mem_append.mpr ⟨isDigit_zeros _, hisDigit⟩, ?_⟩
      · simp [digitList]
      · have hlength : (0 : Int) -
            (List.replicate (-d.firstPower - 1).toNat '0' ++ d.digitList).length = d.exponent := by
          rw [List.length_append, List.length_replicate]
          omega
        rw [hlength, List.singleton_append, ← List.cons_append, ← List.replicate_succ,
          Nat.ofDigitChars_append, Nat.ofDigitChars_replicate_zero, Nat.mul_zero, digitList,
          Nat.ofDigitChars_ten_toDigits, make_self]

/-- A scientific text ends in the power of its first digit; the other digits stand after a point, if
there are any. -/
theorem scientific_eq : ∃ power, readExponent? ('e' :: power) = some (some d.firstPower) ∧
    d.scientific Number.layout = d.digitList.take 1 ++
      ((if (d.digitList.drop 1).isEmpty then [] else '.' :: d.digitList.drop 1) ++
        'e' :: power) := by
  have hmark : Number.layout.mark.toList = ['e'] := by decide
  have hplus : Number.layout.plus.toList = ['+'] := by decide
  have hread := readPower?_toDigits (d.firstPower < 0) d.firstPower.natAbs
  simp only [decide_eq_true_eq] at hread
  refine ⟨(if d.firstPower < 0 then '-' else '+') :: Nat.toDigits 10 d.firstPower.natAbs, ?_, ?_⟩
  · rw [readExponent?, if_pos (.inl rfl), hread, Option.map_some]
    congr 2
    split <;> omega
  · rw [scientific, hmark, hplus]
    by_cases hpower : d.firstPower < 0
    · simp [hpower]
    · simp [hpower]

theorem make_first_digit : make d.negative (Nat.ofDigitChars 10 (d.digitList.take 1 ++
    d.digitList.drop 1) 0) (d.firstPower - (d.digitList.drop 1).length) = d := by
  have hpos : 0 < d.digitList.length := List.length_pos_iff.mpr Nat.toDigits_ne_nil
  have hexponent : d.firstPower - (d.digitList.drop 1).length = d.exponent := by
    rw [firstPower, List.length_drop]
    omega
  rw [List.take_append_drop, hexponent, digitList, Nat.ofDigitChars_ten_toDigits, make_self]

end Decimal

namespace Number

open Literal

theorem exact_integer (n : Int) :
    (Literal.read? (toString n).toList).map Literal.exact = some (.integer n) := by
  have hread : ∀ negative m, Literal.read? ((if negative then ['-'] else []) ++ Nat.toDigits 10 m) =
      some ⟨negative, Nat.toDigits 10 m, none, none⟩ := by
    intro negative m
    have h := @read?_append negative _ [] (.of_toDigits m) (by simp)
    rwa [List.append_nil] at h
  cases n with
  | ofNat m =>
    change (Literal.read? (Nat.repr m).toList).map Literal.exact = _
    rw [Nat.toList_repr]
    refine (congrArg _ (hread false m)).trans ?_
    exact congrArg (fun n : Nat => some (Number.integer n)) Nat.ofDigitChars_ten_toDigits
  | negSucc m =>
    change (Literal.read? ("-" ++ Nat.repr (m + 1)).toList).map Literal.exact = _
    have hsign : "-".toList = ['-'] := by decide
    rw [String.toList_append, Nat.toList_repr, hsign]
    refine (congrArg _ (hread true (m + 1))).trans ?_
    exact congrArg (fun n : Nat => some (Number.integer (-n))) Nat.ofDigitChars_ten_toDigits

theorem exact_positional (d : Decimal) :
    (Literal.read? ((if d.negative then ['-'] else []) ++ d.positional)).map Literal.exact =
      some (.double d) := by
  obtain ⟨whole, after, hbody, hwhole, hne, hafter, hvalue⟩ := d.positional_eq
  have hfraction := @readFraction?_point after [] (by simp) hne hafter
  rw [List.append_nil] at hfraction
  rw [hbody, read?_append d.negative hwhole (by simp), hfraction]
  exact congrArg (fun x => some (Number.double x)) hvalue

theorem exact_scientific (d : Decimal) :
    (Literal.read? ((if d.negative then ['-'] else []) ++ d.scientific layout)).map
      Literal.exact = some (.double d) := by
  obtain ⟨power, hpower, hbody⟩ := d.scientific_eq
  have hvalue := d.make_first_digit
  rw [hbody, read?_append d.negative (d.whole_take Nat.one_pos) (by split <;> simp)]
  by_cases hrest : d.digitList.drop 1 = []
  · rw [hrest] at hvalue ⊢
    change ((readExponent? ('e' :: power)).bind _).map _ = _
    rw [hpower]
    exact congrArg (fun x => some (Number.double x)) hvalue
  · have hdigits : ∀ x ∈ d.digitList.drop 1, x.isDigit := fun x hx =>
      isDigit_toDigits d.digits x (List.mem_of_mem_drop hx)
    rw [List.isEmpty_eq_false_iff.mpr hrest]
    change ((readFraction? ('.' :: (d.digitList.drop 1 ++ 'e' :: power))).bind _).map _ = _
    rw [readFraction?_point (by simp) hrest hdigits, Option.bind_some]
    dsimp only
    rw [hpower]
    exact congrArg (fun x => some (Number.double x)) hvalue

/-- The text of a number is a literal that writes this number. -/
theorem exact_text (n : Number) : (Literal.read? n.text.toList).map Literal.exact = some n := by
  cases n with
  | integer n => exact exact_integer n
  | double d =>
    rw [text, Decimal.text, String.toList_ofList]
    by_cases h : layout.least ≤ d.firstPower ∧ d.firstPower ≤ layout.greatest
    · rw [if_pos h]
      exact exact_positional d
    · rw [if_neg h]
      exact exact_scientific d

end Number

end QueryNotation
