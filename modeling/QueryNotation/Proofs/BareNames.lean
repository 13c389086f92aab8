import Mathlib.Data.List.Forall2
import QueryNotation.Dialect.Builtin
import QueryNotation.Proofs.Scanning

/-! Names that stand without quotes. A dialect leaves the quotes off exactly where a name is bare:
it cannot be taken for a number, a reserved word or several names. No bare name starts with a quote,
so every name can be told from its text, whether or not it is quoted there. -/

namespace QueryNotation

namespace Text

theorem toNat_toLower (c : Char) :
    c.toLower.toNat = if 65 ≤ c.toNat ∧ c.toNat ≤ 90 then c.toNat + 32 else c.toNat := by
  have hrange : c.val ≥ 'A'.val ∧ c.val ≤ 'Z'.val ↔ 65 ≤ c.toNat ∧ c.toNat ≤ 90 := by
    simp only [ge_iff_le, UInt32.le_iff_toNat_le]
    rfl
  unfold Char.toLower
  by_cases h : 65 ≤ c.toNat ∧ c.toNat ≤ 90
  · rw [dif_pos (hrange.mpr h), if_pos h]
    have hstep : ('a'.val - 'A'.val).toNat = 32 := by decide
    change (c.val + ('a'.val - 'A'.val)).toNat = _
    rw [UInt32.toNat_add, hstep, Char.toNat_val]
    omega
  · rw [dif_neg (mt hrange.mp h), if_neg h]

theorem toNat_toUpper (c : Char) :
    c.toUpper.toNat = if 97 ≤ c.toNat ∧ c.toNat ≤ 122 then c.toNat - 32 else c.toNat := by
  have hrange : 'a'.val ≤ c.val ∧ c.val ≤ 'z'.val ↔ 97 ≤ c.toNat ∧ c.toNat ≤ 122 := by
    simp only [UInt32.le_iff_toNat_le]
    rfl
  unfold Char.toUpper
  by_cases h : 97 ≤ c.toNat ∧ c.toNat ≤ 122
  · rw [dif_pos (hrange.mpr h), if_pos h]
    -- Capitals come before small letters, so this distance wraps around.
    have hstep : ('A'.val - 'a'.val).toNat = 0xffffffe0 := by decide
    change (c.val + ('A'.val - 'a'.val)).toNat = _
    rw [UInt32.toNat_add, hstep, Char.toNat_val]
    omega
  · rw [dif_neg (mt hrange.mp h), if_neg h]

theorem toLower_eq_toLower_iff {w c : Char} :
    w.toLower = c.toLower ↔ c = w.toLower ∨ c = w.toUpper := by
  simp only [← Char.toNat_inj, toNat_toLower, toNat_toUpper]
  split_ifs <;> omega

/-- `s` is `word` with each letter in lower or in upper case. -/
def Recased (word s : String) : Prop :=
  List.Forall₂ (fun w c => c = w.toLower ∨ c = w.toUpper) word.toList s.toList

theorem recased_iff {word s : String} :
    Recased word s ↔ word.toList.map Char.toLower = s.toList.map Char.toLower := by
  simp only [Recased, ← toLower_eq_toLower_iff]
  rw [← List.forall₂_eq_eq_eq, List.forall₂_map_left_iff, List.forall₂_map_right_iff]

theorem lower_of_ascii {s : String} (h : ∀ c ∈ s.toList, c.toNat < 128) :
    lower s = String.ofList (s.toList.map Char.toLower) := by
  rw [lower, List.map_congr_left fun c hc => lowerAscii_of_lt (h c hc)]

/-- The name that a text shows: what its quotes hold, or all of it where it is not quoted. -/
def unquote (q : Char) (s : String) : String :=
  (readQuoted q s.toList).elim s fun read => String.ofList read.1

theorem unquote_quoted (q : Char) (name : String) : unquote q (quoted q name) = name := by
  have hread : readQuoted q ((quoted q name).toList ++ []) = some (name.toList, []) :=
    readQuoted_quoted (by simp) name
  rw [List.append_nil] at hread
  rw [unquote, hread, Option.elim_some, String.ofList_toList]

theorem unquote_of_notMem {q : Char} {s : String} (h : q ∉ s.toList) : unquote q s = s := by
  cases hread : readQuoted q s.toList with
  | none => rw [unquote, hread, Option.elim_none]
  | some read =>
    -- What reads starts with a quote.
    have hs := (eq_quoted_of_readQuoted hread).1
    simp [hs, quoted] at h

end Text

namespace Dialect

/-- A name that is read as one name without quotes. Its letters are those of ASCII. -/
structure IsBare (name : String) : Prop where
  nonempty : name ≠ ""
  chars : ∀ c ∈ name.toList, c.isAlpha ∨ c.isDigit ∨ c = '_'
  start : ∀ c ∈ name.toList.head?, ¬ c.isDigit
  unreserved : ∀ word ∈ reservedWords, ¬ Text.Recased word name

theorem isNameChar_iff {c : Char} : isNameChar c ↔ c.isAlpha ∨ c.isDigit ∨ c = '_' := by
  simp [isNameChar, Char.isAlphanum, or_assoc]

theorem toNat_lt_of_isNameChar {c : Char} (h : isNameChar c) : c.toNat < 128 := by
  have hbelow {m : Char} (hle : c.val ≤ m.val) (hm : m.toNat < 128) : c.toNat < 128 :=
    Nat.lt_of_le_of_lt (UInt32.le_iff_toNat_le.mp hle) hm
  rcases isNameChar_iff.mp h with halpha | hdigit | rfl
  · rcases Bool.or_eq_true_iff.mp halpha with hupper | hlower
    · exact hbelow (of_decide_eq_true hupper).2 (by decide)
    · exact hbelow (of_decide_eq_true (Bool.and_eq_true_iff.mp hlower).2) (by decide)
  · exact hbelow (of_decide_eq_true (Bool.and_eq_true_iff.mp hdigit).2) (by decide)
  · decide

theorem toLower_of_reserved {word : String} (h : word ∈ reservedWords) :
    word.toList.map Char.toLower = word.toList := by
  have hall : reservedWords.all fun word => word.toList.map Char.toLower == word.toList := by decide
  exact eq_of_beq (List.all_eq_true.mp hall word h)

theorem isReserved_iff {name : String} (h : ∀ c ∈ name.toList, c.toNat < 128) :
    isReserved name ↔ ∃ word ∈ reservedWords, Text.Recased word name := by
  rw [isReserved, List.contains_iff_mem, Text.lower_of_ascii h]
  constructor
  · intro hmem
    refine ⟨_, hmem, Text.recased_iff.mpr ?_⟩
    rw [toLower_of_reserved hmem, String.toList_ofList]
  · rintro ⟨word, hmem, hrecased⟩
    rw [← Text.recased_iff.mp hrecased, toLower_of_reserved hmem, String.ofList_toList]
    exact hmem

/-- A name needs no quotes exactly if it is bare. -/
theorem needsQuoting_eq_false_iff {name : String} : needsQuoting name = false ↔ IsBare name := by
  have hchars : name.toList.any (!isNameChar ·) = false ↔
      ∀ c ∈ name.toList, c.isAlpha ∨ c.isDigit ∨ c = '_' := by
    simp [List.any_eq_false, isNameChar_iff]
  -- Once its characters are known to be in ASCII, a name is compared with a word letter by letter.
  have hreserved (h : ∀ c ∈ name.toList, c.isAlpha ∨ c.isDigit ∨ c = '_') :
      isReserved name = false ↔ ∀ word ∈ reservedWords, ¬ Text.Recased word name := by
    have hascii : ∀ c ∈ name.toList, c.toNat < 128 := fun c hc =>
      toNat_lt_of_isNameChar (isNameChar_iff.mpr (h c hc))
    rw [← Bool.not_eq_true, isReserved_iff hascii]
    simp
  have hempty : name = "" ↔ name.toList = [] := by simp
  rw [needsQuoting, Bool.or_eq_false_iff, Bool.or_eq_false_iff, hchars]
  constructor
  · rintro ⟨⟨hword, hname⟩, hstart⟩
    cases hlist : name.toList with
    | nil => simp [hlist] at hstart
    | cons c cs =>
      refine ⟨by simp [hempty, hlist], hname, ?_, (hreserved hname).mp hword⟩
      simpa [hlist] using hstart
  · rintro ⟨hne, hname, hstart, hword⟩
    refine ⟨⟨(hreserved hname).mpr hword, hname⟩, ?_⟩
    obtain ⟨c, cs, hlist⟩ := List.exists_cons_of_ne_nil (mt hempty.mpr hne)
    simpa [hlist] using hstart

instance (name : String) : Decidable (IsBare name) := decidable_of_iff _ needsQuoting_eq_false_iff

theorem quoteIfNeeded_of_isBare (d : Dialect) {name : String} (h : IsBare name) :
    d.quoteIfNeeded name = name := by
  rw [quoteIfNeeded, needsQuoting_eq_false_iff.mpr h, if_neg Bool.false_ne_true]

theorem quoteIfNeeded_of_not_isBare (d : Dialect) {name : String} (h : ¬ IsBare name) :
    d.quoteIfNeeded name = d.quoteName name := by
  have hneeds : needsQuoting name = true := by
    simpa using mt needsQuoting_eq_false_iff.mp h
  rw [quoteIfNeeded, if_pos hneeds]

/-- The quote of a dialect is none of the characters of bare names. -/
theorem exists_quote_of_builtin {d : Dialect} (hd : d ∈ builtins) :
    ∃ q, d.quoteName = Text.quoted q ∧ ¬ isNameChar q := by
  simp only [builtins, List.mem_cons, List.not_mem_nil, or_false] at hd
  rcases hd with rfl | rfl | rfl | rfl
  · exact ⟨'"', rfl, by decide⟩
  · exact ⟨'"', rfl, by decide⟩
  · exact ⟨'"', rfl, by decide⟩
  · exact ⟨'\x60', rfl, by decide⟩

theorem unquote_quoteIfNeeded {d : Dialect} {q : Char} (hd : d.quoteName = Text.quoted q)
    (hq : ¬ isNameChar q) (name : String) : Text.unquote q (d.quoteIfNeeded name) = name := by
  by_cases h : IsBare name
  · rw [quoteIfNeeded_of_isBare d h]
    exact Text.unquote_of_notMem fun hmem => hq (isNameChar_iff.mpr (h.chars q hmem))
  · rw [quoteIfNeeded_of_not_isBare d h, hd, Text.unquote_quoted]

/-- Names read back. A reader of quoted text takes exactly what is quoted, up to a quote that no
other one follows, and leaves the rest as it is. In the dialects that are always there a name can be
told from its text also where it is quoted only if it needs to be, and it is left without quotes
exactly if it is bare. -/
theorem names_read_back :
    (∀ (q : Char) (text name rest : String),
      Text.readQuoted q text.toList = some (name.toList, rest.toList) ↔
        text = Text.quoted q name ++ rest ∧ rest.toList.head? ≠ some q) ∧
    ∀ d ∈ builtins, ∃ q, d.quoteName = Text.quoted q ∧
      Function.Injective d.quoteIfNeeded ∧
      ∀ name, (d.quoteIfNeeded name = name ∧ IsBare name) ∨
        (d.quoteIfNeeded name = Text.quoted q name ∧ ¬ IsBare name) := by
  constructor
  · intro q text name rest
    constructor
    · intro hread
      obtain ⟨htext, hrest⟩ := Text.eq_quoted_of_readQuoted hread
      rw [String.ofList_toList, ← String.toList_append, String.toList_inj] at htext
      exact ⟨htext, hrest⟩
    · rintro ⟨rfl, hrest⟩
      rw [String.toList_append]
      exact Text.readQuoted_quoted hrest name
  · intro d hd
    obtain ⟨q, hname, hq⟩ := exists_quote_of_builtin hd
    refine ⟨q, hname, ?_, ?_⟩
    · exact Function.LeftInverse.injective (unquote_quoteIfNeeded hname hq)
    · intro name
      by_cases h : IsBare name
      · exact .inl ⟨quoteIfNeeded_of_isBare d h, h⟩
      · rw [quoteIfNeeded_of_not_isBare d h, hname]
        exact .inr ⟨rfl, h⟩

/-- A name of two quotes reads back before an alias, and in MySQL a reserved word is not taken for
the name that looks like it in quotes. -/
theorem quoteRuns_read_back :
    Text.readQuoted '"' (Text.quoted '"' "\"\"" ++ " AS x").toList =
      some ("\"\"".toList, " AS x".toList) ∧
    mysql.quoteIfNeeded "Group" ≠ mysql.quoteIfNeeded "`Group`" ∧
    IsBare (mysql.quoteIfNeeded "group_by") ∧ ¬ IsBare "Group" := by
  obtain ⟨q, _, hinjective, hcases⟩ := names_read_back.2 mysql (by simp [builtins])
  refine ⟨(names_read_back.1 _ _ _ _).mpr ⟨rfl, by decide⟩, hinjective.ne (by decide), ?_, ?_⟩
  · rcases hcases "group_by" with ⟨htext, hbare⟩ | ⟨_, hquoted⟩
    · rw [htext]
      exact hbare
    · exact absurd (by decide) hquoted
  · rcases hcases "Group" with ⟨htext, _⟩ | ⟨_, hquoted⟩
    · exact absurd htext (by decide)
    · exact hquoted

end Dialect

end QueryNotation
