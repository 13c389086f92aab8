import QueryNotation.Proofs.Quoting

/-! Parentheses in a text, those inside quotes not counted. Reading from the left, `nesting?` counts
the open ones; a text that opens none which it does not close, and closes none which it did not
open, is `Matched`. The `groups` of a text are what stands between the two parentheses of each pair,
in the order in which the pairs open. Whatever a dialect writes for the parts of a tree is matched,
if the operators and functions that it writes as given have no parentheses. -/

namespace QueryNotation

namespace Text

def parens : List Char := ['(', ')']

/-- No text up to any place closes more parentheses than it opens, and the whole closes as many. -/
structure Balanced (l : List Lexeme) : Prop where
  start : ∀ p, p <+: l → p.count (.plain ')') ≤ p.count (.plain '(')
  whole : l.count (.plain ')') = l.count (.plain '(')

/-- The number of open parentheses after a lexeme, `n` of them being open before it. -/
def Lexeme.nest? (n : Nat) (x : Lexeme) : Option Nat :=
  if x = .plain '(' then some (n + 1)
  else if x = .plain ')' then if n = 0 then none else some (n - 1)
  else some n

/-- The number of open parentheses after lexemes; none if one is closed that is not open. -/
def nesting? (n : Nat) (l : List Lexeme) : Option Nat := l.foldlM Lexeme.nest? n

def Matched (l : List Lexeme) : Prop := nesting? 0 l = some 0

instance (l : List Lexeme) : Decidable (Matched l) := inferInstanceAs (Decidable (_ = _))

section Nesting

variable {n m k : Nat} {l xs ys : List Lexeme}

theorem nesting?_cons (x : Lexeme) : nesting? n (x :: l) = (x.nest? n).bind (nesting? · l) := rfl

theorem nesting?_append : nesting? n (xs ++ ys) = (nesting? n xs).bind (nesting? · ys) :=
  List.foldlM_append

theorem Lexeme.nest?_open : (Lexeme.plain '(').nest? n = some (n + 1) := rfl

theorem Lexeme.nest?_close : (Lexeme.plain ')').nest? (n + 1) = some n := rfl

theorem Lexeme.nest?_other {x : Lexeme} (hopen : x ≠ .plain '(') (hclose : x ≠ .plain ')') :
    x.nest? n = some n := by
  rw [Lexeme.nest?, if_neg hopen, if_neg hclose]

theorem Lexeme.nest?_cases {x : Lexeme} (h : x.nest? n = some m) :
    (x = .plain '(' ∧ m = n + 1) ∨ (x = .plain ')' ∧ n = m + 1) ∨
      (x ≠ .plain '(' ∧ x ≠ .plain ')' ∧ m = n) := by
  unfold Lexeme.nest? at h
  split at h
  · rename_i hopen
    cases h
    exact .inl ⟨hopen, rfl⟩
  · rename_i hopen
    split at h
    · rename_i hclose
      split at h
      · cases h
      · cases h
        exact .inr (.inl ⟨hclose, by omega⟩)
    · rename_i hclose
      cases h
      exact .inr (.inr ⟨hopen, hclose, rfl⟩)

/-- More open parentheses before a text are as many more after it. -/
theorem nesting?_add (h : nesting? n l = some m) : nesting? (n + k) l = some (m + k) := by
  induction l generalizing n with
  | nil =>
    cases h
    rfl
  | cons x l ih =>
    rw [nesting?_cons] at h ⊢
    obtain ⟨j, hx, hl⟩ := Option.bind_eq_some_iff.mp h
    have hstep : x.nest? (n + k) = some (j + k) := by
      rcases Lexeme.nest?_cases hx with ⟨rfl, rfl⟩ | ⟨rfl, rfl⟩ | ⟨hopen, hclose, rfl⟩
      · rw [Nat.add_right_comm, Lexeme.nest?_open]
      · rw [Nat.add_right_comm, Lexeme.nest?_close]
      · exact Lexeme.nest?_other hopen hclose
    rw [hstep, Option.bind_some]
    exact ih hl

theorem count_of_nesting? (h : nesting? n l = some m) :
    l.count (.plain ')') + m = l.count (.plain '(') + n := by
  induction l generalizing n with
  | nil =>
    cases h
    rfl
  | cons x l ih =>
    rw [nesting?_cons] at h
    obtain ⟨j, hx, hl⟩ := Option.bind_eq_some_iff.mp h
    have hcount := ih hl
    rw [List.count_cons, List.count_cons]
    rcases Lexeme.nest?_cases hx with ⟨rfl, rfl⟩ | ⟨rfl, rfl⟩ | ⟨hopen, hclose, rfl⟩
    · simp
      omega
    · simp
      omega
    · simpa [hopen, hclose] using hcount

theorem Matched.balanced (h : Matched l) : Balanced l where
  start := by
    rintro p ⟨rest, rfl⟩
    rw [Matched, nesting?_append] at h
    obtain ⟨m, hp, -⟩ := Option.bind_eq_some_iff.mp h
    have hcount := count_of_nesting? hp
    omega
  whole := count_of_nesting? h

theorem Matched.nil : Matched [] := rfl

theorem Matched.append (hxs : Matched xs) (hys : Matched ys) : Matched (xs ++ ys) := by
  rw [Matched, nesting?_append, hxs]
  exact hys

theorem Matched.parens (h : Matched l) : Matched (.plain '(' :: (l ++ [.plain ')'])) := by
  have hinner : nesting? 1 l = some 1 := nesting?_add (k := 1) h
  rw [Matched, nesting?_cons, Lexeme.nest?_open, Option.bind_some, nesting?_append, hinner]
  rfl

theorem Matched.other {x : Lexeme} (hopen : x ≠ .plain '(') (hclose : x ≠ .plain ')')
    (h : Matched l) : Matched (x :: l) := by
  rw [Matched, nesting?_cons, Lexeme.nest?_other hopen hclose]
  exact h

theorem Matched.plain {s : String} (h : Unquoted Text.parens s) :
    Matched (s.toList.map .plain) := by
  rw [Unquoted] at h
  generalize s.toList = cs at h ⊢
  induction cs with
  | nil => exact .nil
  | cons c cs ih =>
    have hc := h c List.mem_cons_self
    simp only [Text.parens, List.mem_cons, List.not_mem_nil, or_false, not_or] at hc
    exact .other (by simpa using hc.1) (by simpa using hc.2)
      (ih fun x hx => h x (List.mem_cons_of_mem c hx))

end Nesting

/-- What stands before the parenthesis that closes the `n + 1` open ones, if there is one. -/
def inside? (n : Nat) : List Lexeme → Option (List Lexeme)
  | [] => none
  | x :: l =>
    if x = .plain ')' ∧ n = 0 then some []
    else (x.nest? n).bind fun m => (inside? m l).map (x :: ·)

/-- The contents of the pairs of parentheses, in the order in which they open. -/
def groups : List Lexeme → List (List Lexeme)
  | [] => []
  | x :: l => (if x = .plain '(' then (inside? 0 l).toList else []) ++ groups l

section Groups

variable {n : Nat} {l xs ys content : List Lexeme}

theorem inside?_close (h : nesting? n content = some 0) (rest : List Lexeme) :
    inside? n (content ++ .plain ')' :: rest) = some content := by
  induction content generalizing n with
  | nil =>
    cases h
    rfl
  | cons x content ih =>
    rw [nesting?_cons] at h
    obtain ⟨m, hx, hcontent⟩ := Option.bind_eq_some_iff.mp h
    have hnot : ¬ (x = .plain ')' ∧ n = 0) := by
      rintro ⟨rfl, rfl⟩
      cases hx
    rw [List.cons_append, inside?, if_neg hnot, hx, Option.bind_some, ih hcontent]
    rfl

theorem eq_append_of_inside? (h : inside? n l = some content) :
    nesting? n content = some 0 ∧ ∃ rest, l = content ++ .plain ')' :: rest := by
  induction l generalizing n content with
  | nil => cases h
  | cons x l ih =>
    rw [inside?] at h
    split at h
    · rename_i hclose
      obtain ⟨rfl, rfl⟩ := hclose
      cases h
      exact ⟨rfl, l, rfl⟩
    · obtain ⟨m, hx, hl⟩ := Option.bind_eq_some_iff.mp h
      obtain ⟨content', hcontent, rfl⟩ := Option.map_eq_some_iff.mp hl
      obtain ⟨hnesting, rest, rfl⟩ := ih hcontent
      exact ⟨by rw [nesting?_cons, hx]; exact hnesting, rest, rfl⟩

theorem inside?_append (h : inside? n l = some content) (rest : List Lexeme) :
    inside? n (l ++ rest) = some content := by
  obtain ⟨hnesting, after, rfl⟩ := eq_append_of_inside? h
  rw [List.append_assoc, List.cons_append]
  exact inside?_close hnesting _

/-- A group stands between two parentheses and is matched itself. -/
theorem split_of_mem_groups (h : content ∈ groups l) :
    Matched content ∧
      ∃ before after, l = before ++ .plain '(' :: (content ++ .plain ')' :: after) := by
  induction l with
  | nil => cases h
  | cons x l ih =>
    rw [groups, List.mem_append] at h
    rcases h with h | h
    · split at h
      · rename_i hopen
        obtain ⟨hmatched, rest, rfl⟩ := eq_append_of_inside? (Option.mem_toList.mp h)
        exact ⟨hmatched, [], rest, by rw [hopen]; rfl⟩
      · cases h
    · obtain ⟨hmatched, before, after, rfl⟩ := ih h
      exact ⟨hmatched, x :: before, after, rfl⟩

/-- The groups of a text are groups of every longer one. -/
theorem groups_append_sublist (xs ys : List Lexeme) :
    (groups xs ++ groups ys).Sublist (groups (xs ++ ys)) := by
  induction xs with
  | nil => exact .refl _
  | cons x xs ih =>
    rw [List.cons_append, groups, groups, List.append_assoc]
    refine List.Sublist.append ?_ ih
    split
    · cases h : inside? 0 xs with
      | none => exact List.nil_sublist _
      | some content => simp only [inside?_append h, List.Sublist.refl]
    · exact .refl _

theorem groups_parens_sublist (h : Matched content) :
    (content :: groups content).Sublist (groups (.plain '(' :: (content ++ [.plain ')']))) := by
  have hrest := groups_append_sublist content [.plain ')']
  rw [groups, if_pos rfl, inside?_close h]
  exact .cons_cons content ((List.sublist_append_left _ _).trans hrest)

end Groups

theorem unquoted_append_iff {quotes quotes' : List Char} {s : String} :
    Unquoted (quotes ++ quotes') s ↔ Unquoted quotes s ∧ Unquoted quotes' s := by
  simp only [Unquoted, List.mem_append, not_or, imp_and, forall_and]

/-- Text has none of the characters that its own characters never are. -/
theorem unquoted_of_all {p : Char → Bool} {quotes : List Char} (hquotes : quotes.all (!p ·))
    {s : String} (hs : ∀ c ∈ s.toList, p c) : Unquoted quotes s := by
  intro c hc hmem
  have hnot := List.all_eq_true.mp hquotes c hmem
  rw [hs c hc] at hnot
  cases hnot

end Text

namespace Dialect

open Text (Matched Unquoted parens)

/-- The texts of a dialect have no parentheses, apart from types, in which they match, and from
operators and functions that are written as given. -/
structure MatchedTexts (d : Dialect) : Prop where
  bool : ∀ b, Unquoted parens (d.boolText b)
  type : ∀ declared, Matched ((d.typeName declared).toList.map .plain)
  placeholder : ∀ index, Unquoted parens (d.placeholder index)
  operator : ∀ op, Unquoted parens (d.operatorText op) ∨ op = .custom (d.operatorText op)
  function : ∀ name, Unquoted parens (d.functionName name) ∨ d.functionName name = name

theorem unquoted_wordBool (b : Bool) : Unquoted parens (wordBool b) := by
  cases b <;> decide

theorem unquoted_numberBool (b : Bool) : Unquoted parens (numberBool b) := by
  cases b <;> decide

theorem unquoted_operator (op : Sql.Operator) : Unquoted parens op.text ∨ op = .custom op.text := by
  cases op with
  | custom token => exact .inr rfl
  | _ => exact .inl (by decide)

theorem unquoted_standardFunction (name : String) :
    Unquoted parens (standardFunction name) ∨ standardFunction name = name := by
  have hall : standardFunctions.all fun f => decide (Unquoted parens f) := by decide
  unfold standardFunction
  simp only
  split
  · exact .inl (by decide)
  · split
    · rename_i hmem
      exact .inl (of_decide_eq_true (List.all_eq_true.mp hall _ (List.contains_iff_mem.mp hmem)))
    · exact .inr rfl

theorem unquoted_renamed (standard : String) {own : String} (hown : Unquoted parens own)
    (name : String) :
    Unquoted parens (if standardFunction name = standard then own else standardFunction name) ∨
      (if standardFunction name = standard then own else standardFunction name) = name := by
  split
  · exact .inl hown
  · exact unquoted_standardFunction name

theorem unquoted_mark (mark : String) (h : Unquoted parens mark) (index : Nat) :
    Unquoted parens (mark ++ toString index) := by
  refine h.append (Text.unquoted_of_all (p := Char.isDigit) (by decide) fun c hc => ?_)
  change c ∈ (Nat.repr index).toList at hc
  rw [Nat.toList_repr] at hc
  exact Nat.isDigit_of_mem_toDigits (by decide) (by decide) hc

theorem matched_standardType (declared : String) :
    Matched ((standardType declared).toList.map .plain) := by
  unfold standardType
  split <;> decide

theorem matchedTexts_of_builtin {d : Dialect} (h : d ∈ builtins) : d.MatchedTexts := by
  simp only [builtins, List.mem_cons, List.not_mem_nil, or_false] at h
  rcases h with rfl | rfl | rfl | rfl
  · constructor <;> simp only [ansi]
    · exact unquoted_wordBool
    · exact matched_standardType
    · exact unquoted_mark "$" (by decide)
    · exact unquoted_operator
    · exact unquoted_standardFunction
  · constructor <;> simp only [postgres, ansi, postgresFunction]
    · exact unquoted_wordBool
    · intro declared
      unfold postgresType
      split
      case h_7 => exact matched_standardType declared
      all_goals decide
    · exact unquoted_mark "$" (by decide)
    · exact unquoted_operator
    · exact unquoted_renamed "IFNULL" (by decide)
  · constructor <;> simp only [sqlite, ansi, sqliteFunction]
    · exact unquoted_numberBool
    · intro declared
      unfold sqliteType
      split <;> decide
    · exact unquoted_mark "?" (by decide)
    · exact unquoted_operator
    · exact unquoted_renamed "SUBSTRING" (by decide)
  · constructor <;> simp only [mysql, ansi]
    · exact unquoted_numberBool
    · intro declared
      unfold mysqlType
      split
      case h_7 => exact matched_standardType declared
      all_goals decide
    · intro index
      decide
    · exact unquoted_operator
    · exact unquoted_standardFunction

end Dialect

namespace Sql

variable {d : Dialect}

/-- What is written for parts has matching parentheses. -/
theorem Writes.matched (hd : d.MatchedTexts) (q : Char) {a : List Part} {xs : List Piece}
    (h : Writes d a xs) (hparts : ∀ p ∈ a, p.Unquoted d Text.parens) :
    Text.Matched (xs.flatMap (d.lexemes q)) := by
  induction h with
  | nil => exact .nil
  | @leaf p piece hpiece =>
    rw [List.flatMap_singleton]
    cases p with
    | name s =>
      cases hpiece
      exact .other (by simp) (by simp) .nil
    | text s =>
      cases hpiece
      exact .other (by simp) (by simp) .nil
    | param index =>
      cases hpiece
      exact .plain (hd.placeholder index)
    | _ => cases hpiece
  | nulls => exact .nil
  | limit => exact .nil
  | bool b =>
    rw [List.flatMap_singleton]
    exact .plain (hd.bool b)
  | number n =>
    rw [List.flatMap_singleton]
    exact .plain (Text.unquoted_of_all (p := Number.isTextChar) (by decide) n.text_chars)
  | glue s hs left right ihl ihr =>
    simp only [List.mem_append, or_imp, forall_and] at hparts
    have hglue : Text.Unquoted Text.parens s := by
      simp only [isGlue, Bool.and_eq_true, List.all_eq_true] at hs
      exact Text.unquoted_of_all (p := isGlueChar) (by decide) hs.2
    rw [List.flatMap_append, List.flatMap_cons]
    exact (ihl hparts.1).append ((Text.Matched.plain hglue).append (ihr hparts.2))
  | operator op left right ihl ihr =>
    simp only [List.mem_append, List.mem_cons, or_imp, forall_and, forall_eq] at hparts
    obtain ⟨hl, hop, hr⟩ := hparts
    have hspace : Text.Unquoted Text.parens " " := by decide
    rw [List.flatMap_append, List.flatMap_cons]
    exact (ihl hl).append ((Text.Matched.plain ((hspace.append hop).append hspace)).append (ihr hr))
  | parens inner ih =>
    rw [Piece.parens, List.cons_append, List.flatMap_cons, List.flatMap_append]
    exact (ih hparts).parens
  | function name args ih =>
    simp only [List.mem_cons, or_imp, forall_and, forall_eq] at hparts
    rw [List.flatMap_cons]
    exact (Text.Matched.plain hparts.1).append (ih hparts.2)
  | @cast type a xs operand ih =>
    simp only [List.mem_append, or_imp, forall_and] at hparts
    have hopen : "CAST(".toList = "CAST".toList ++ ['('] := by decide
    have hclose : ")".toList = [')'] := by decide
    have hinner := ((ih hparts.1).append
      ((Text.Matched.plain (by decide : Text.Unquoted Text.parens " AS ")).append
        (hd.type type))).parens
    have hcast := (Text.Matched.plain (by decide : Text.Unquoted Text.parens "CAST")).append hinner
    simpa [Dialect.lexemes, hopen, hclose] using hcast

end Sql

end QueryNotation
