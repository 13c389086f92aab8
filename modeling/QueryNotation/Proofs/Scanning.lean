import QueryNotation.Text.Quoted

/-! Reading a text with quoted parts in it. `scan` knows a list of quote characters and splits a
text into plain characters and quoted parts. A quoted part reads back wherever it stands, as long
as the character after it is not its own quote. -/

namespace QueryNotation.Text

/-- What is doubled and closed by `q` reads back, and the rest is left as it is. -/
theorem readDoubled_doubled {q : Char} {rest : List Char} (hrest : q ∉ rest.head?)
    (s : List Char) : readDoubled q (doubled q s ++ q :: rest) = some (s, rest) := by
  induction s with
  | nil =>
    cases rest with
    | nil => simp [doubled, readDoubled]
    | cons d rest =>
      have hd : d ≠ q := by simpa using hrest
      simp [doubled, readDoubled, hd]
  | cons c s ih =>
    by_cases hc : c = q
    · subst hc
      simp [doubled, readDoubled, ih]
    · -- The reader looks one character ahead, so the rest has to be seen as nonempty.
      obtain ⟨d, ds, hds⟩ : ∃ d ds, doubled q s ++ q :: rest = d :: ds :=
        List.exists_cons_of_ne_nil (by simp)
      rw [hds] at ih
      simp [doubled, hc, hds, readDoubled, ih]

/-- Nothing else reads: what was read is doubled and closed by `q`, and no `q` follows. -/
theorem eq_doubled_of_readDoubled {q : Char} {cs s rest : List Char}
    (h : readDoubled q cs = some (s, rest)) : cs = doubled q s ++ q :: rest ∧ q ∉ rest.head? := by
  fun_induction readDoubled q cs generalizing s with
  | case1 => cases h
  | case2 =>
    cases h
    simp [doubled]
  | case3 => cases h
  | case4 cs ih =>
    obtain ⟨⟨s', rest'⟩, hread, heq⟩ := Option.map_eq_some_iff.mp h
    cases heq
    obtain ⟨hcs, hrest⟩ := ih hread
    simp [doubled, hcs, hrest]
  | case5 d cs hd =>
    cases h
    simp [doubled, hd]
  | case6 c d cs hc ih =>
    obtain ⟨⟨s', rest'⟩, hread, heq⟩ := Option.map_eq_some_iff.mp h
    cases heq
    obtain ⟨hcs, hrest⟩ := ih hread
    simp [doubled, hc, hcs, hrest]

/-- Reading up to a closing quote takes at least that quote. -/
theorem length_readDoubled_lt {q : Char} {cs s rest : List Char}
    (h : readDoubled q cs = some (s, rest)) : rest.length < cs.length := by
  rw [(eq_doubled_of_readDoubled h).1, List.length_append, List.length_cons]
  omega

theorem readQuoted_quoted {q : Char} {rest : List Char} (hrest : q ∉ rest.head?) (s : String) :
    readQuoted q ((quoted q s).toList ++ rest) = some (s.toList, rest) := by
  rw [quoted, String.toList_ofList, List.append_assoc, List.cons_append, readQuoted, if_pos rfl]
  exact readDoubled_doubled hrest s.toList

/-- Only quoted text reads, up to a quote that no other one follows. -/
theorem eq_quoted_of_readQuoted {q : Char} {cs s rest : List Char}
    (h : readQuoted q cs = some (s, rest)) :
    cs = (quoted q (String.ofList s)).toList ++ rest ∧ q ∉ rest.head? := by
  cases cs with
  | nil => cases h
  | cons c cs =>
    rw [readQuoted] at h
    split at h
    · rename_i hc
      obtain ⟨hcs, hrest⟩ := eq_doubled_of_readDoubled h
      refine ⟨?_, hrest⟩
      simp [quoted, hc, hcs]
    · cases h

theorem length_readQuoted_lt {q : Char} {cs s rest : List Char}
    (h : readQuoted q cs = some (s, rest)) : rest.length < cs.length := by
  rw [(eq_quoted_of_readQuoted h).1, quoted, String.toList_ofList]
  simp only [List.cons_append, List.length_cons, List.length_append]
  omega

/-- What a text is made of: plain characters, and quoted parts as they read. -/
inductive Lexeme where
  | plain (c : Char)
  | quoted (q : Char) (s : String)
deriving DecidableEq, Repr

namespace Lexeme

/-- The quote character and the contents of a quoted part. -/
def quoted? : Lexeme → Option (Char × String)
  | .plain _ => none
  | .quoted q s => some (q, s)

end Lexeme

/-- Splits a text at its quoted parts; none if one of them does not end. -/
def scan (quotes : List Char) (cs : List Char) : Option (List Lexeme) :=
  match cs with
  | [] => some []
  | c :: cs =>
    if c ∈ quotes then
      match _hread : readDoubled c cs with
      | none => none
      | some (s, rest) => (scan quotes rest).map (.quoted c (String.ofList s) :: ·)
    else (scan quotes cs).map (.plain c :: ·)
termination_by cs.length
decreasing_by
  · exact Nat.lt_succ_of_lt (length_readDoubled_lt _hread)
  · exact Nat.lt_succ_self _

/-- No quote character stands in a text. -/
def Unquoted (quotes : List Char) (s : String) : Prop := ∀ c ∈ s.toList, c ∉ quotes

instance (quotes : List Char) (s : String) : Decidable (Unquoted quotes s) :=
  List.decidableBAll (fun c => c ∉ quotes) s.toList

/-- No quote character stands at the start of what follows. -/
def Closed (quotes : List Char) (rest : List Char) : Prop := ∀ c ∈ rest.head?, c ∉ quotes

variable {quotes : List Char}

theorem Unquoted.append {s t : String} (hs : Unquoted quotes s) (ht : Unquoted quotes t) :
    Unquoted quotes (s ++ t) := by
  intro c hc
  rw [String.toList_append, List.mem_append] at hc
  exact hc.elim (hs c) (ht c)

/-- Text without quotes, and not empty, keeps apart what stands on its two sides. -/
theorem Unquoted.closed {s : String} (hs : Unquoted quotes s) (hne : s.toList ≠ [])
    (rest : List Char) : Closed quotes (s.toList ++ rest) := by
  obtain ⟨c, cs, hcs⟩ := List.exists_cons_of_ne_nil hne
  intro c' hc'
  have : c = c' := by simpa [hcs] using hc'
  subst this
  exact hs c (by simp [hcs])

/-- Text without quotes is plain. -/
theorem scan_unquoted {s : String} (hs : Unquoted quotes s) (rest : List Char) :
    scan quotes (s.toList ++ rest) = (scan quotes rest).map (s.toList.map .plain ++ ·) := by
  unfold Unquoted at hs
  generalize s.toList = cs at hs
  induction cs with
  | nil => simp
  | cons c cs ih =>
    have hc : c ∉ quotes := hs c (by simp)
    have hcs : ∀ c' ∈ cs, c' ∉ quotes := fun c' h => hs c' (by simp [h])
    rw [List.cons_append, scan, if_neg hc, ih hcs, Option.map_map]
    rfl

/-- A quoted text is one part. -/
theorem scan_quoted {q : Char} (hq : q ∈ quotes) (s : String) {rest : List Char}
    (hrest : Closed quotes rest) :
    scan quotes ((quoted q s).toList ++ rest) =
      (scan quotes rest).map (.quoted q s :: ·) := by
  have hnext : q ∉ rest.head? := fun h => hrest q h hq
  have hread := readDoubled_doubled hnext s.toList
  rw [quoted, String.toList_ofList, List.append_assoc, List.cons_append, List.singleton_append,
    scan, if_pos hq]
  split
  · rename_i hnone
    rw [hread] at hnone
    cases hnone
  · rename_i s' rest' hsome
    rw [hread] at hsome
    cases hsome
    rw [String.ofList_toList]

/-- A text reads as these lexemes before everything that does not start with a quote. -/
def Reads (quotes : List Char) (cs : List Char) (lexemes : List Lexeme) : Prop :=
  ∀ rest, Closed quotes rest → scan quotes (cs ++ rest) = (scan quotes rest).map (lexemes ++ ·)

namespace Reads

theorem nil : Reads quotes [] [] := by
  intro rest _
  simp

theorem quoted {q : Char} (hq : q ∈ quotes) (s : String) :
    Reads quotes (Text.quoted q s).toList [.quoted q s] := by
  intro rest hrest
  exact scan_quoted hq s hrest

variable {s : String} {cs ds : List Char} {left right : List Lexeme}

theorem before (hs : Unquoted quotes s) (hright : Reads quotes ds right) :
    Reads quotes (s.toList ++ ds) (s.toList.map .plain ++ right) := by
  intro rest hrest
  rw [List.append_assoc, scan_unquoted hs, hright rest hrest, Option.map_map]
  congr 1
  funext lexemes
  exact (List.append_assoc ..).symm

theorem plain (hs : Unquoted quotes s) : Reads quotes s.toList (s.toList.map .plain) := by
  have := before hs nil
  rwa [List.append_nil, List.append_nil] at this

/-- Text without quotes joins what stands on its two sides. -/
theorem join (hs : Unquoted quotes s) (hne : s.toList ≠ []) (hleft : Reads quotes cs left)
    (hright : Reads quotes ds right) :
    Reads quotes (cs ++ (s.toList ++ ds)) (left ++ (s.toList.map .plain ++ right)) := by
  intro rest hrest
  have hclosed : Closed quotes (s.toList ++ (ds ++ rest)) := hs.closed hne _
  rw [List.append_assoc, List.append_assoc, hleft _ hclosed, ← List.append_assoc s.toList,
    before hs hright rest hrest, Option.map_map]
  congr 1
  funext lexemes
  exact (List.append_assoc ..).symm

/-- A text that reads as lexemes before everything does so at the end. -/
theorem scan_eq (h : Reads quotes cs left) : scan quotes cs = some left := by
  have hclosed : Closed quotes [] := by
    intro c hc
    cases hc
  have := h [] hclosed
  rw [List.append_nil] at this
  simpa [scan] using this

end Reads

end QueryNotation.Text
