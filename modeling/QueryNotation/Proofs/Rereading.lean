import QueryNotation.Proofs.NormalForm
import QueryNotation.Proofs.Quoting

/-! Reading expressions back from standard SQL. A chain of operations is printed without parentheses
of its own, and its operators may be words, so the text is read from the left: an operand, then
operator and operand in turn, and a group is a chain in parentheses. What is read is the tree that
was printed, so two trees with the same text are one. -/

namespace QueryNotation

namespace Text

/-- The number that decimal digits write. -/
def readNat (digits : List Char) : Option Nat :=
  if digits ≠ [] ∧ digits.all Char.isDigit then some (Nat.ofDigitChars 10 digits 0) else none

/-- The integer that decimal digits write, with a sign if it is negative. -/
def readInt : List Char → Option Int
  | '-' :: digits => (readNat digits).map fun n => -n
  | digits => (readNat digits).map fun n => n

theorem all_isDigit_toDigits (n : Nat) : (Nat.toDigits 10 n).all Char.isDigit :=
  List.all_eq_true.mpr fun _ => Nat.isDigit_of_mem_toDigits (by decide) (by decide)

theorem readNat_toDigits (n : Nat) : readNat (Nat.toDigits 10 n) = some n := by
  rw [readNat, if_pos ⟨Nat.toDigits_ne_nil, all_isDigit_toDigits n⟩, Nat.ofDigitChars_ten_toDigits]

theorem readInt_toString (n : Int) : readInt (toString n).toList = some n := by
  cases n with
  | ofNat m =>
    change readInt (Nat.repr m).toList = _
    have hdigits := all_isDigit_toDigits m
    rw [Nat.toList_repr, readInt.eq_def]
    split
    · -- A sign is not a digit.
      rename_i heq
      rw [heq] at hdigits
      cases hdigits
    · rw [readNat_toDigits]
      rfl
  | negSucc m =>
    change readInt ("-" ++ Nat.repr (m + 1)).toList = _
    have hsign : "-".toList = ['-'] := by decide
    rw [String.toList_append, Nat.toList_repr, hsign, List.singleton_append, readInt,
      readNat_toDigits]
    rfl

end Text

namespace Sql

/-- An operand without operands of its own: a column, a literal or a parameter. -/
inductive Expr.Atom : Expr → Prop
  | ref {path : List String} (h : path ≠ []) : Expr.Atom (.ref ⟨path, none⟩)
  | null : Expr.Atom (.literal .null)
  | bool (b : Bool) : Expr.Atom (.literal (.bool b))
  | text (s : String) : Expr.Atom (.literal (.text s))
  | integer (n : Int) : Expr.Atom (.literal (.number (.integer n)))
  | param (index : Nat) : Expr.Atom (.param index)

def Operator.isCustom : Operator → Bool
  | .custom _ => true
  | _ => false

/-- Chains of atoms and groups: operations stand to the left of an operator or in a group. -/
inductive Expr.ChainNormal : Expr → Prop
  | atom {e : Expr} (h : e.Atom) : Expr.ChainNormal e
  | group {e : Expr} (inner : e.ChainNormal) (h : e.isOperation) : Expr.ChainNormal (.group e)
  | not {e : Expr} (operand : e.ChainNormal) (h : ¬ e.isOperation) : Expr.ChainNormal (.not e)
  | binary {op : Operator} {l r : Expr} (hop : ¬ op.isCustom) (left : l.ChainNormal)
      (right : r.ChainNormal) (hl : ¬ l.isNot) (hr : ¬ r.isOperation) :
      Expr.ChainNormal (.binary op l r)

/-- The text of an expression. -/
def Expr.text (d : Dialect) (e : Expr) : Except PrintError String := (e.print d).map d.text

section Reader

/-- Reads a segment of a path. -/
def readSegment : List Char → Option (String × List Char)
  | '*' :: rest => some ("*", rest)
  | cs => (Text.readQuoted '"' cs).map fun (s, rest) => (String.ofList s, rest)

theorem length_readSegment_lt {cs rest : List Char} {s : String}
    (h : readSegment cs = some (s, rest)) : rest.length < cs.length := by
  unfold readSegment at h
  split at h
  · cases h
    exact Nat.lt_succ_self _
  · obtain ⟨⟨s', rest'⟩, hread, heq⟩ := Option.map_eq_some_iff.mp h
    cases heq
    exact Text.length_readQuoted_lt hread

/-- Reads segments with points between them. -/
def readPath (cs : List Char) : Option (List String × List Char) :=
  match _hread : readSegment cs with
  | none => none
  | some (s, '.' :: rest) => (readPath rest).map fun (path, rest) => (s :: path, rest)
  | some (s, rest) => some ([s], rest)
termination_by cs.length
decreasing_by exact Nat.lt_of_succ_lt (length_readSegment_lt _hread)

theorem length_readPath_lt {cs rest : List Char} {path : List String}
    (h : readPath cs = some (path, rest)) : rest.length < cs.length := by
  fun_induction readPath cs generalizing path with
  | case1 => cases h
  | case2 cs s rest' hread ih =>
    obtain ⟨⟨path', _⟩, hpath, ⟨⟩⟩ := Option.map_eq_some_iff.mp h
    have hrest := ih hpath
    have hsegment := length_readSegment_lt hread
    rw [List.length_cons] at hsegment
    omega
  | case3 cs s rest' _ hread =>
    cases h
    exact length_readSegment_lt hread

/-- A character of a word: none that ends one, and none that starts another atom. -/
def isWordChar (c : Char) : Bool := c ∉ [' ', ')', '"', '*', Dialect.textQuote]

/-- The parameter or the integer that a word writes. -/
def readNumber : List Char → Option Expr
  | '$' :: digits => (Text.readNat digits).map .param
  | digits => (Text.readInt digits).map fun n => .literal (.number (.integer n))

/-- The atom that a word writes. -/
def readWord (word : List Char) : Option Expr :=
  if word = "NULL".toList then some (.literal .null)
  else if word = "TRUE".toList then some (.literal (.bool true))
  else if word = "FALSE".toList then some (.literal (.bool false))
  else readNumber word

/-- Reads an operand that is no group. -/
def readAtom (cs : List Char) : Option (Expr × List Char) :=
  match cs with
  | [] => none
  | c :: _ =>
    if c = '"' ∨ c = '*' then
      (readPath cs).map fun (path, rest) => (.ref ⟨path, none⟩, rest)
    else if c = Dialect.textQuote then
      (Text.readQuoted Dialect.textQuote cs).map fun (s, rest) =>
        (.literal (.text (String.ofList s)), rest)
    else (readWord (cs.takeWhile isWordChar)).map (·, cs.dropWhile isWordChar)

theorem length_readAtom_lt {cs rest : List Char} {e : Expr}
    (h : readAtom cs = some (e, rest)) : rest.length < cs.length := by
  unfold readAtom at h
  split at h
  · cases h
  rename_i c cs
  split at h
  · obtain ⟨⟨path, _⟩, hpath, ⟨⟩⟩ := Option.map_eq_some_iff.mp h
    exact length_readPath_lt hpath
  split at h
  · obtain ⟨⟨s, _⟩, hread, ⟨⟩⟩ := Option.map_eq_some_iff.mp h
    exact Text.length_readQuoted_lt hread
  · obtain ⟨e', hword, ⟨⟩⟩ := Option.map_eq_some_iff.mp h
    have hsplit := congrArg List.length
      (List.takeWhile_append_dropWhile (p := isWordChar) (l := c :: cs))
    have hne : (c :: cs).takeWhile isWordChar ≠ [] := by
      intro hnil
      rw [hnil] at hword
      cases hword
    have hpos := List.length_pos_iff.mpr hne
    rw [List.length_append] at hsplit
    omega

def Operator.spaced (op : Operator) : List Char := ' ' :: (op.text.toList ++ [' '])

/-- The table of operators; one that another begins with stands after it. -/
def tableOperators : List Operator := [
  .isNot, .notIn, .notLike, .is, .not, .eq, .notEq, .lt, .ltEq, .gt, .gtEq, .isIn, .like, .between,
  .and, .or, .add, .sub, .mul, .div, .mod, .concat]

/-- Reads an operator between blanks. -/
def readOperator (cs : List Char) : Option (Operator × List Char) :=
  (tableOperators.find? fun op => op.spaced.isPrefixOf cs).map fun op =>
    (op, cs.drop op.spaced.length)

theorem length_readOperator_lt {cs rest : List Char} {op : Operator}
    (h : readOperator cs = some (op, rest)) : rest.length < cs.length := by
  obtain ⟨op', hfind, ⟨⟩⟩ := Option.map_eq_some_iff.mp h
  have hprefix := List.find?_some hfind
  have hlength := (List.isPrefixOf_iff_prefix.mp hprefix).length_le
  rw [Operator.spaced, List.length_cons] at hlength
  rw [Operator.spaced, List.length_cons, List.length_drop]
  omega

mutual

/-- Reads a chain from an operand on. What has been read to the left of the operand is a tree with a
place in it, which `fill` fills; `stack` has such a tree for every group that is open. -/
def readOperand (stack : List (Expr → Expr)) (fill : Expr → Expr) (cs : List Char) :
    Option (Expr × List Char) :=
  match cs with
  | '(' :: rest => readOperand (fill :: stack) id rest
  | 'N' :: 'O' :: 'T' :: ' ' :: rest => readOperand stack (fill ∘ .not) rest
  | cs =>
    match _hread : readAtom cs with
    | none => none
    | some (e, rest) => readAfter stack (fill e) rest
termination_by cs.length
decreasing_by
  · exact Nat.lt_succ_self _
  · simp only [List.length_cons]
    omega
  · exact length_readAtom_lt _hread

/-- Reads a chain on from the tree that has been read. -/
def readAfter (stack : List (Expr → Expr)) (e : Expr) (cs : List Char) :
    Option (Expr × List Char) :=
  match stack, cs with
  | fill :: stack, ')' :: rest => readAfter stack (fill (.group e)) rest
  | stack, cs =>
    match _hread : readOperator cs with
    | some (op, rest) => readOperand stack (.binary op e) rest
    | none => if stack.isEmpty then some (e, cs) else none
termination_by cs.length
decreasing_by
  · exact Nat.lt_succ_self _
  · exact length_readOperator_lt _hread

end

end Reader

section RoundTrip

/-- What may follow an expression: a blank, the end of a group, or nothing. -/
def Delimited (rest : List Char) : Prop := ∀ c ∈ rest.head?, c = ' ' ∨ c = ')'

theorem delimited_nil : Delimited [] := by simp [Delimited]

theorem Delimited.notMem_head? {rest : List Char} (h : Delimited rest) {c : Char}
    (hc : c ≠ ' ' ∧ c ≠ ')') : c ∉ rest.head? := by
  intro hmem
  rcases h c hmem with rfl | rfl
  · exact hc.1 rfl
  · exact hc.2 rfl

/-- The text of a segment of a path. -/
def segmentText (s : String) : List Char := if s = "*" then ['*'] else (Text.quoted '"' s).toList

theorem readSegment_segmentText (s : String) {rest : List Char} (hrest : '"' ∉ rest.head?) :
    readSegment (segmentText s ++ rest) = some (s, rest) := by
  unfold segmentText
  split
  · rename_i hs
    rw [hs]
    rfl
  · have hquoted : readSegment ((Text.quoted '"' s).toList ++ rest) =
        (Text.readQuoted '"' ((Text.quoted '"' s).toList ++ rest)).map
          fun (s, rest) => (String.ofList s, rest) := by
      rw [Text.quoted, String.toList_ofList]
      rfl
    rw [hquoted, Text.readQuoted_quoted hrest]
    simp

theorem text_path_single (s : String) :
    (Dialect.ansi.text (Piece.path [s])).toList = segmentText s := by
  unfold Piece.path segmentText
  split <;> simp_all [Dialect.text, Dialect.pieceText, Dialect.ansi, List.intercalate]

theorem text_path_cons (s t : String) (path : List String) :
    (Dialect.ansi.text (Piece.path (s :: t :: path))).toList =
      segmentText s ++ '.' :: (Dialect.ansi.text (Piece.path (t :: path))).toList := by
  have hpath : Piece.path (s :: t :: path) =
      Piece.path [s] ++ .plain "." :: Piece.path (t :: path) := by
    simp [Piece.path, List.intercalate]
  rw [hpath, Dialect.toList_text_append, Dialect.toList_text_cons, text_path_single]
  rfl

theorem readPath_text {path : List String} (hpath : path ≠ []) {rest : List Char}
    (hrest : Delimited rest) :
    readPath ((Dialect.ansi.text (Piece.path path)).toList ++ rest) = some (path, rest) := by
  induction path with
  | nil => exact absurd rfl hpath
  | cons s path ih =>
    cases path with
    | nil =>
      have hsegment := readSegment_segmentText s (hrest.notMem_head? (c := '"') (by decide))
      rw [text_path_single, readPath.eq_def, hsegment]
      split
      · rename_i heq
        cases heq
      · rename_i heq
        cases heq
        exact absurd rfl (hrest.notMem_head? (c := '.') (by decide))
      · rename_i heq
        cases heq
        rfl
    | cons t path =>
      rw [text_path_cons, List.append_assoc, List.cons_append, readPath.eq_def,
        readSegment_segmentText s (by simp)]
      split
      · rename_i heq
        cases heq
      · rename_i heq
        cases heq
        rw [ih (by simp)]
        rfl
      · rename_i hne heq
        cases heq
        exact absurd rfl (hne _)

theorem readAtom_word {word rest : List Char} {e : Expr} (hword : readWord word = some e)
    (hchars : word.all isWordChar) (hrest : Delimited rest) :
    readAtom (word ++ rest) = some (e, rest) := by
  rw [List.all_eq_true] at hchars
  have htake : rest.takeWhile isWordChar = [] ∧ rest.dropWhile isWordChar = rest := by
    cases rest with
    | nil => exact ⟨rfl, rfl⟩
    | cons c rest =>
      rcases hrest c rfl with rfl | rfl
      · exact ⟨rfl, rfl⟩
      · exact ⟨rfl, rfl⟩
  cases word with
  | nil => cases hword
  | cons c word =>
    have hc := hchars c (List.mem_cons_self ..)
    simp only [isWordChar, List.mem_cons, List.not_mem_nil, or_false, not_or, decide_eq_true_eq]
      at hc
    rw [List.cons_append, readAtom, if_neg (by simp [hc]), if_neg hc.2.2.2.2, ← List.cons_append,
      List.takeWhile_append_of_pos hchars, List.dropWhile_append_of_pos hchars, htake.1, htake.2,
      List.append_nil, hword]
    rfl

theorem readAtom_path {cs rest : List Char} {path : List String}
    (h : readPath cs = some (path, rest)) :
    readAtom cs = some (.ref ⟨path, none⟩, rest) := by
  cases cs with
  | nil =>
    rw [readPath] at h
    cases h
  | cons c cs =>
    by_cases hc : c = '"' ∨ c = '*'
    · rw [readAtom, if_pos hc, h]
      rfl
    · rw [not_or] at hc
      have hsegment : readSegment (c :: cs) = none := by
        rw [readSegment.eq_2, Text.readQuoted, if_neg hc.1]
        · rfl
        · rintro rest ⟨⟩
          exact hc.2 rfl
      rw [readPath.eq_def, hsegment] at h
      cases h

theorem readAtom_quoted (s : String) {rest : List Char} (hrest : Delimited rest) :
    readAtom ((Text.quoted Dialect.textQuote s).toList ++ rest) =
      some (.literal (.text s), rest) := by
  have hquoted := Text.readQuoted_quoted (hrest.notMem_head? (c := Dialect.textQuote) (by decide)) s
  rw [Text.quoted, String.toList_ofList, List.append_assoc, List.cons_append] at hquoted ⊢
  rw [readAtom, if_neg (by decide), if_pos rfl, hquoted]
  simp

theorem toList_text_single (d : Dialect) (x : Piece) :
    (d.text [x]).toList = (d.pieceText x).toList := by
  rw [d.toList_text_cons]
  exact List.append_nil _

theorem isWordChar_of_isTextChar {c : Char} (h : Number.isTextChar c) : isWordChar c := by
  rw [isWordChar, decide_eq_true_eq]
  intro hmem
  have hnot : [' ', ')', '"', '*', Dialect.textQuote].all (!Number.isTextChar ·) := by decide
  have := List.all_eq_true.mp hnot c hmem
  rw [h] at this
  cases this

theorem readWord_toString (n : Int) :
    readWord (toString n).toList = some (.literal (.number (.integer n))) := by
  have hchars : ∀ c ∈ (toString n).toList, Number.isTextChar c := Number.text_chars (.integer n)
  have hread := Text.readInt_toString n
  generalize (toString n).toList = word at hchars hread
  have hletter : ∀ {s : List Char} {c : Char}, c ∈ s → ¬ Number.isTextChar c → word ≠ s := by
    rintro s c hc hnot rfl
    exact hnot (hchars c hc)
  rw [readWord, if_neg (hletter (c := 'N') (by decide) (by decide)),
    if_neg (hletter (c := 'T') (by decide) (by decide)),
    if_neg (hletter (c := 'F') (by decide) (by decide)), readNumber, hread]
  · rfl
  · exact fun digits => hletter (c := '$') (List.mem_cons_self ..) (by decide)

theorem toList_placeholder (index : Nat) :
    (Dialect.ansi.placeholder index).toList = '$' :: Nat.toDigits 10 index := by
  change ("$" ++ Nat.repr index).toList = _
  rw [String.toList_append, Nat.toList_repr]
  simp

theorem readWord_placeholder (index : Nat) :
    readWord (Dialect.ansi.placeholder index).toList = some (.param index) := by
  rw [toList_placeholder, readWord, if_neg (by simp), if_neg (by simp), if_neg (by simp),
    readNumber, Text.readNat_toDigits]
  rfl

theorem isWordChar_placeholder (index : Nat) :
    (Dialect.ansi.placeholder index).toList.all isWordChar := by
  rw [toList_placeholder, List.all_eq_true, List.forall_mem_cons]
  exact ⟨by decide, fun c hc => isWordChar_of_isTextChar (isTextChar_of_mem_toDigits hc)⟩

/-- An atom reads back from its text. -/
theorem Expr.Atom.readAtom_text {e : Expr} (h : e.Atom) {xs : List Piece}
    (hx : e.print .ansi = .ok xs) {rest : List Char} (hrest : Delimited rest) :
    readAtom ((Dialect.ansi.text xs).toList ++ rest) = some (e, rest) := by
  cases h with
  | ref hpath =>
    cases hx
    exact readAtom_path (readPath_text hpath hrest)
  | null =>
    cases hx
    exact readAtom_word rfl (by decide) hrest
  | bool b =>
    cases hx
    cases b <;> exact readAtom_word rfl (by decide) hrest
  | text s =>
    cases hx
    rw [toList_text_single]
    exact readAtom_quoted s hrest
  | integer n =>
    cases hx
    rw [toList_text_single]
    have hchars : (toString n).toList.all isWordChar := List.all_eq_true.mpr fun c hc =>
      isWordChar_of_isTextChar (Number.text_chars (.integer n) c hc)
    exact readAtom_word (readWord_toString n) hchars hrest
  | param index =>
    cases hx
    rw [toList_text_single]
    exact readAtom_word (readWord_placeholder index) (isWordChar_placeholder index) hrest

/-- None of the words that go on from another operator starts the text. -/
def StartsOperand (cs : List Char) : Prop :=
  ∀ word ∈ ["IN ", "LIKE ", "NOT "], ¬ word.toList.isPrefixOf cs

theorem startsOperand_of_readAtom {cs rest : List Char} {e : Expr}
    (h : readAtom cs = some (e, rest)) : StartsOperand cs := by
  intro word hword hprefix
  obtain ⟨tail, rfl⟩ := List.isPrefixOf_iff_prefix.mp hprefix
  simp only [List.mem_cons, List.not_mem_nil, or_false] at hword
  have hnone : readAtom (word.toList ++ tail) = none := by
    rcases hword with rfl | rfl | rfl <;> rfl
  rw [hnone] at h
  cases h

theorem readOperator_spaced {op : Operator} (hop : ¬ op.isCustom) {cs : List Char}
    (hcs : StartsOperand cs) : readOperator (op.spaced ++ cs) = some (op, cs) := by
  have hfind : (tableOperators.find? fun op' => op'.spaced.isPrefixOf (op.spaced ++ cs)) =
      some op := by
    have hin : ¬ "IN ".toList.isPrefixOf cs := hcs _ (by simp)
    have hlike : ¬ "LIKE ".toList.isPrefixOf cs := hcs _ (by simp)
    have hnot : ¬ "NOT ".toList.isPrefixOf cs := hcs _ (by simp)
    cases op with
    | custom token => exact absurd rfl hop
    | is => exact List.find?_cons_of_neg hnot
    | not =>
      rw [tableOperators, List.find?_cons_of_neg, List.find?_cons_of_neg, List.find?_cons_of_neg]
      · rfl
      · exact hlike
      · exact hin
      · exact Bool.false_ne_true
    | _ => rfl
  rw [readOperator, hfind, Option.map_some, List.drop_left]

variable {stack : List (Expr → Expr)} {fill : Expr → Expr} {e : Expr} {rest : List Char}

theorem readOperand_open :
    readOperand stack fill ('(' :: rest) = readOperand (fill :: stack) id rest := by
  rw [readOperand]

theorem readOperand_not :
    readOperand stack fill ("NOT ".toList ++ rest) = readOperand stack (fill ∘ .not) rest := by
  change readOperand stack fill ('N' :: 'O' :: 'T' :: ' ' :: rest) = _
  rw [readOperand]

theorem readOperand_atom {cs : List Char} (h : readAtom cs = some (e, rest)) :
    readOperand stack fill cs = readAfter stack (fill e) rest := by
  rw [readOperand.eq_def]
  split
  · cases h
  · cases h
  · split
    · rename_i hnone
      rw [h] at hnone
      cases hnone
    · rename_i hsome
      rw [h] at hsome
      cases hsome
      rfl

theorem readAfter_close :
    readAfter (fill :: stack) e (')' :: rest) = readAfter stack (fill (.group e)) rest := by
  rw [readAfter]

theorem readAfter_operator {op : Operator} (hop : ¬ op.isCustom) (hrest : StartsOperand rest) :
    readAfter stack e (op.spaced ++ rest) = readOperand stack (.binary op e) rest := by
  have hread := readOperator_spaced hop hrest
  rw [readAfter.eq_def]
  split
  · rename_i heq
    cases heq
  · split
    · rename_i hsome
      rw [hread] at hsome
      cases hsome
      rfl
    · rename_i hnone
      rw [hread] at hnone
      cases hnone

theorem readAfter_end (h : readOperator rest = none) : readAfter [] e rest = some (e, rest) := by
  rw [readAfter.eq_def]
  split
  · rename_i heq
    cases heq
  · split
    · rename_i hsome
      rw [h] at hsome
      cases hsome
    · rfl

theorem text_parens (xs : List Piece) :
    (Dialect.ansi.text (Piece.parens xs)).toList =
      '(' :: ((Dialect.ansi.text xs).toList ++ [')']) := by
  rw [Piece.parens, List.cons_append, Dialect.toList_text_cons, Dialect.toList_text_append]
  rfl

theorem text_printNot {e : Expr} (h : ¬ e.isOperation) (xs : List Piece) :
    (Dialect.ansi.text (printNot e xs)).toList =
      "NOT ".toList ++ (Dialect.ansi.text xs).toList := by
  have hbinary : ¬ e.isBinary := by
    cases e <;> first | exact absurd rfl h | exact Bool.false_ne_true
  rw [printNot, if_neg hbinary, Dialect.toList_text_cons]
  rfl

theorem text_binary (op : Operator) (xs ys : List Piece) :
    (Dialect.ansi.text (xs ++ .plain (" " ++ Dialect.ansi.operatorText op ++ " ") :: ys)).toList =
      (Dialect.ansi.text xs).toList ++ (op.spaced ++ (Dialect.ansi.text ys).toList) := by
  rw [Dialect.toList_text_append, Dialect.toList_text_cons]
  change _ ++ ((" " ++ op.text ++ " ").toList ++ _) = _
  simp [Operator.spaced]

namespace Expr.ChainNormal

variable {e : Expr} {xs : List Piece} {rest : List Char}

theorem print_ok (h : e.ChainNormal) (d : Dialect) : ∃ xs, e.print d = .ok xs := by
  induction h with
  | atom h => cases h <;> exact ⟨_, rfl⟩
  | group _ _ ih =>
    obtain ⟨xs, hx⟩ := ih
    exact ⟨Piece.parens xs, by rw [Expr.print, hx]; rfl⟩
  | @not e _ _ ih =>
    obtain ⟨xs, hx⟩ := ih
    exact ⟨printNot e xs, by rw [Expr.print, hx]; rfl⟩
  | @binary op l r _ _ _ _ _ ihl ihr =>
    obtain ⟨xs, hx⟩ := ihl
    obtain ⟨ys, hy⟩ := ihr
    exact ⟨xs ++ .plain (" " ++ d.operatorText op ++ " ") :: ys, by rw [Expr.print, hx, hy]; rfl⟩

theorem startsOperand_text (h : e.ChainNormal) (hop : ¬ e.isOperation)
    (hx : e.print .ansi = .ok xs) (hrest : Delimited rest) :
    StartsOperand ((Dialect.ansi.text xs).toList ++ rest) := by
  cases h with
  | atom h => exact startsOperand_of_readAtom (h.readAtom_text hx hrest)
  | group _ _ =>
    simp only [Expr.print, Outcome.bind_eq_ok, Outcome.pure_eq_ok] at hx
    obtain ⟨ys, _, rfl⟩ := hx
    rw [text_parens]
    intro word hword
    simp only [List.mem_cons, List.not_mem_nil, or_false] at hword
    rcases hword with rfl | rfl | rfl <;> exact Bool.false_ne_true
  | not _ _ => exact absurd rfl hop
  | binary _ _ _ _ _ => exact absurd rfl hop

/-- A chain is read up to its end. What stands to the left of an operation is nothing or an open
parenthesis, so there is no tree yet that it would be put into. -/
theorem readOperand_text (h : e.ChainNormal) (hx : e.print .ansi = .ok xs)
    {stack : List (Expr → Expr)} {fill : Expr → Expr} (hfill : e.isOperation → fill = id)
    (hrest : Delimited rest) :
    readOperand stack fill ((Dialect.ansi.text xs).toList ++ rest) =
      readAfter stack (fill e) rest := by
  induction h generalizing xs stack fill rest with
  | atom h => exact readOperand_atom (h.readAtom_text hx hrest)
  | group _ _ ih =>
    simp only [Expr.print, Outcome.bind_eq_ok, Outcome.pure_eq_ok] at hx
    obtain ⟨ys, hy, rfl⟩ := hx
    have hclose : Delimited (')' :: rest) := by simp [Delimited]
    rw [text_parens, List.cons_append, readOperand_open, List.append_assoc, List.singleton_append,
      ih hy (fun _ => rfl) hclose]
    exact readAfter_close
  | not _ hop ih =>
    simp only [Expr.print, Outcome.bind_eq_ok, Outcome.pure_eq_ok] at hx
    obtain ⟨ys, hy, rfl⟩ := hx
    rw [text_printNot hop, List.append_assoc, readOperand_not, ih hy (fun h => absurd h hop) hrest]
    rfl
  | @binary op l r hop _ right _ hr ihl ihr =>
    simp only [Expr.print, Outcome.bind_eq_ok, Outcome.pure_eq_ok] at hx
    obtain ⟨ys, hy, zs, hz, rfl⟩ := hx
    rw [hfill rfl, text_binary, List.append_assoc, List.append_assoc]
    have hblank : Delimited (op.spaced ++ ((Dialect.ansi.text zs).toList ++ rest)) := by
      simp [Delimited, Operator.spaced]
    rw [ihl hy (fun _ => rfl) hblank,
      readAfter_operator hop (right.startsOperand_text hr hz hrest),
      ihr hz (fun h => absurd h hr) hrest]
    rfl

/-- A chain reads back from its text, as long as no operator follows. -/
theorem read_text (h : e.ChainNormal) (hx : e.print .ansi = .ok xs) (hrest : Delimited rest)
    (hend : readOperator rest = none) :
    readOperand [] id ((Dialect.ansi.text xs).toList ++ rest) = some (e, rest) := by
  rw [h.readOperand_text hx (fun _ => rfl) hrest]
  exact readAfter_end hend

end Expr.ChainNormal

end RoundTrip

/-- Chains with the same text in standard SQL are the same tree. -/
theorem Expr.eq_of_text_eq {e e' : Expr} (h : e.ChainNormal) (h' : e'.ChainNormal)
    (htext : e.text .ansi = e'.text .ansi) : e = e' := by
  obtain ⟨xs, hx⟩ := h.print_ok .ansi
  obtain ⟨xs', hx'⟩ := h'.print_ok .ansi
  have hsame : Dialect.ansi.text xs = Dialect.ansi.text xs' := by
    rw [Expr.text, Expr.text, hx, hx'] at htext
    exact Except.ok.inj htext
  have hread := h.read_text hx delimited_nil rfl
  rw [hsame, h'.read_text hx' delimited_nil rfl] at hread
  cases hread
  rfl

/-- A chain with a star, a sign, an operator of two words and quotes. -/
def chainWithGroups : Expr :=
  .binary .isNot
    (.binary .sub (.ref ⟨["t", "*"], none⟩) (.literal (.number (.integer (-1)))))
    (.group (.not (.literal (.text "it\x27s"))))

theorem chainWithGroups_unique :
    chainWithGroups.ChainNormal ∧
      chainWithGroups.text .ansi = .ok "\"t\".* - -1 IS NOT (NOT \x27it\x27\x27s\x27)" ∧
      chainWithGroups = .binary .isNot
        (.binary .sub (.ref ⟨["t", "*"], none⟩) (.literal (.number (.integer (-1)))))
        (.group (.not (.literal (.text "it\x27s")))) := by
  have h : chainWithGroups.ChainNormal :=
    .binary (by decide)
      (.binary (by decide) (.atom (.ref (by decide))) (.atom (.integer _)) (by decide) (by decide))
      (.group (.not (.atom (.text _)) (by decide)) (by decide)) (by decide) (by decide)
  exact ⟨h, rfl, Expr.eq_of_text_eq h h rfl⟩

end Sql

end QueryNotation
