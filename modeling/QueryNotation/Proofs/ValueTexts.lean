import QueryNotation.Proofs.Numerals
import QueryNotation.Proofs.Rereading
import QueryNotation.Proofs.ValueRows

/-! The text of rows determines them, in a dialect that writes truth values as words. The end of a
cell can be told although a text may hold commas, parentheses and quotes of its own, so the cells of
a row are read one after another, and then the rows. -/

namespace QueryNotation

namespace Text

/-- What is written can be told from what follows it, whenever that is one of the `ends`. -/
def Unambiguous (ends : List Char → Prop) (write : α → List Char) : Prop :=
  ∀ ⦃a b : α⦄ ⦃r s : List Char⦄, ends r → ends s → write a ++ r = write b ++ s → a = b ∧ r = s

/-- Items with commas between them. -/
def joined (write : α → List Char) (l : List α) : List Char :=
  [',', ' '].intercalate (l.map write)

/-- Items with a comma before each of them. -/
def following (write : α → List Char) : List α → List Char
  | [] => []
  | a :: l => ',' :: ' ' :: (write a ++ following write l)

theorem following_cons (write : α → List Char) (a : α) (l : List α) :
    following write (a :: l) = ',' :: ' ' :: joined write (a :: l) := by
  induction l generalizing a with
  | nil => simp [joined, following]
  | cons b l ih =>
    rw [following, ih b, joined, joined, List.map_cons, List.map_cons, List.map_cons,
      List.intercalate_cons_cons]
    simp

theorem joined_cons (write : α → List Char) (a : α) (l : List α) :
    joined write (a :: l) = write a ++ following write l := by
  have h := following_cons write a l
  rw [following] at h
  exact (List.cons.inj (List.cons.inj h).2).2.symm

section Joined

variable {write : α → List Char} {ends itemEnds : List Char → Prop}
  (h : Unambiguous itemEnds write) (hcomma : ∀ r, itemEnds (',' :: r))
  (hends : ∀ r, ends r → itemEnds r ∧ r.head? ≠ some ',')

include h hcomma hends

theorem Unambiguous.following : Unambiguous ends (following write) := by
  have hitem : ∀ l r, ends r → itemEnds (Text.following write l ++ r) := by
    intro l r hr
    cases l with
    | nil => exact (hends r hr).1
    | cons a l => exact hcomma _
  intro l l' r s hr hs heq
  induction l generalizing l' with
  | nil =>
    cases l' with
    | nil => exact ⟨rfl, heq⟩
    | cons b l' =>
      rw [Text.following, List.nil_append] at heq
      rw [heq] at hr
      exact absurd rfl (hends _ hr).2
  | cons a l ih =>
    cases l' with
    | nil =>
      rw [Text.following, Text.following, List.nil_append] at heq
      rw [← heq] at hs
      exact absurd rfl (hends _ hs).2
    | cons b l' =>
      simp only [Text.following, List.cons_append, List.append_assoc, List.cons.injEq,
        true_and] at heq
      obtain ⟨rfl, hrest⟩ := h (hitem l r hr) (hitem l' s hs) heq
      obtain ⟨rfl, rfl⟩ := ih hrest
      exact ⟨rfl, rfl⟩

theorem Unambiguous.joined (hstart : ∀ a r, ¬ ends (write a ++ r)) :
    Unambiguous ends (joined write) := by
  have hcons : ∀ a l r, ¬ ends (Text.joined write (a :: l) ++ r) := by
    intro a l r
    rw [joined_cons, List.append_assoc]
    exact hstart a _
  intro l l' r s hr hs heq
  cases l with
  | nil =>
    cases l' with
    | nil => exact ⟨rfl, heq⟩
    | cons b l' =>
      change r = _ at heq
      exact absurd (heq ▸ hr) (hcons b l' s)
  | cons a l =>
    cases l' with
    | nil =>
      change _ = s at heq
      exact absurd (heq ▸ hs) (hcons a l r)
    | cons b l' =>
      have hfollowing :
          Text.following write (a :: l) ++ r = Text.following write (b :: l') ++ s := by
        rw [following_cons, following_cons, List.cons_append, List.cons_append, heq]
        rfl
      exact Unambiguous.following h hcomma hends hr hs hfollowing

end Joined

end Text

section Cells

/-- What may follow a cell: the comma before the next one, or the end of the row. -/
def endsCell (rest : List Char) : Prop := rest.head? = some ',' ∨ rest.head? = some ')'

/-- A character of a cell that is not quoted. -/
def isCellChar (c : Char) : Bool := c ∉ [',', ')', Dialect.textQuote]

/-- The scalar that a word writes. -/
def Scalar.ofWord? (word : List Char) : Option Scalar :=
  if word = "NULL".toList then some .null
  else if word = "TRUE".toList then some (.bool true)
  else if word = "FALSE".toList then some (.bool false)
  else (Number.Literal.read? word).map fun l => .number l.exact

/-- Reads a cell: quoted text, or a word up to the end of the cell. -/
def Scalar.read? (cs : List Char) : Option (Scalar × List Char) :=
  if cs.head? = some Dialect.textQuote then
    (Text.readQuoted Dialect.textQuote cs).map fun (s, rest) => (.text (String.ofList s), rest)
  else (Scalar.ofWord? (cs.takeWhile isCellChar)).map fun v => (v, cs.dropWhile isCellChar)

theorem Scalar.ofWord?_number (n : Number) : Scalar.ofWord? n.text.toList = some (.number n) := by
  have hword : ∀ word c, c ∈ word → ¬ Number.isTextChar c → n.text.toList ≠ word := by
    rintro _ c hc hchar rfl
    exact hchar (n.text_chars c hc)
  rw [Scalar.ofWord?, if_neg (hword _ 'N' (by decide) (by decide)),
    if_neg (hword _ 'T' (by decide) (by decide)), if_neg (hword _ 'F' (by decide) (by decide))]
  obtain ⟨l, hread, hexact⟩ := Option.map_eq_some_iff.mp n.exact_text
  rw [hread, Option.map_some, hexact]

variable {rest : List Char} (hrest : endsCell rest)

include hrest

theorem Scalar.read?_word {word : List Char} (hword : word.all isCellChar) {v : Scalar}
    (h : Scalar.ofWord? word = some v) : Scalar.read? (word ++ rest) = some (v, rest) := by
  have hchars := List.all_eq_true.mp hword
  have hquote : (word ++ rest).head? ≠ some Dialect.textQuote := by
    cases word with
    | nil => rcases hrest with hrest | hrest <;> rw [List.nil_append, hrest] <;> decide
    | cons c cs =>
      intro hc
      obtain rfl := Option.some.inj hc
      exact absurd (hchars _ List.mem_cons_self) (by decide)
  have hstop : rest.takeWhile isCellChar = [] ∧ rest.dropWhile isCellChar = rest := by
    cases rest with
    | nil => exact ⟨rfl, rfl⟩
    | cons c cs =>
      rcases hrest with hc | hc <;> obtain rfl := Option.some.inj hc <;> exact ⟨rfl, rfl⟩
  rw [Scalar.read?, if_neg hquote, List.takeWhile_append_of_pos hchars,
    List.dropWhile_append_of_pos hchars, hstop.1, hstop.2, List.append_nil, h]
  rfl

theorem Scalar.read?_text (s : String) :
    Scalar.read? ((Text.quoted Dialect.textQuote s).toList ++ rest) = some (.text s, rest) := by
  have hquote : Dialect.textQuote ∉ rest.head? := by
    rcases hrest with hrest | hrest <;> rw [hrest] <;> decide
  have hhead : ((Text.quoted Dialect.textQuote s).toList ++ rest).head? =
      some Dialect.textQuote := by
    rw [Text.quoted, String.toList_ofList]
    rfl
  rw [Scalar.read?, if_pos hhead, Text.readQuoted_quoted hquote]
  exact congrArg (fun t => some (Scalar.text t, rest)) String.ofList_toList

end Cells

section Rows

variable {d : Dialect} (hd : d.boolText = Dialect.wordBool)

include hd

theorem Scalar.read?_scalarText (v : Scalar) {rest : List Char} (hrest : endsCell rest) :
    Scalar.read? ((d.scalarText v).toList ++ rest) = some (v, rest) := by
  cases v with
  | null =>
    rw [Dialect.scalarText]
    exact Scalar.read?_word hrest (by decide) rfl
  | bool b =>
    rw [Dialect.scalarText, hd]
    cases b with
    | true => exact Scalar.read?_word hrest (by decide) rfl
    | false => exact Scalar.read?_word hrest (by decide) rfl
  | number n =>
    refine Scalar.read?_word hrest (List.all_eq_true.mpr fun c hc => ?_) (Scalar.ofWord?_number n)
    have hchar := n.text_chars c hc
    rw [isCellChar, decide_eq_true_eq]
    intro hmem
    simp only [List.mem_cons, List.not_mem_nil, or_false] at hmem
    rcases hmem with rfl | rfl | rfl <;> exact absurd hchar (by decide)
  | text s => exact Scalar.read?_text hrest s

theorem unambiguous_scalarText :
    Text.Unambiguous endsCell fun v => (d.scalarText v).toList := by
  intro v w r s hr hs heq
  have hread := Scalar.read?_scalarText hd v hr
  rw [heq, Scalar.read?_scalarText hd w hs] at hread
  cases hread
  exact ⟨rfl, rfl⟩

theorem head?_scalarText (v : Scalar) (rest : List Char) :
    ((d.scalarText v).toList ++ rest).head? ≠ some ')' := by
  have hclose : ∀ cs, Scalar.read? (')' :: cs) = none := fun cs => rfl
  have hread := @Scalar.read?_scalarText d hd v [')'] (.inr rfl)
  intro hhead
  cases htext : (d.scalarText v).toList with
  | nil =>
    rw [htext, List.nil_append, hclose] at hread
    cases hread
  | cons c cs =>
    rw [htext] at hhead hread
    obtain rfl := Option.some.inj hhead
    rw [List.cons_append, hclose] at hread
    cases hread

omit hd in
theorem toList_rowText (row : List Scalar) :
    (d.rowText row).toList =
      '(' :: (Text.joined (fun v => (d.scalarText v).toList) row ++ [')']) := by
  simp [Dialect.rowText, Text.joined, String.toList_intercalate, Function.comp_def]

theorem unambiguous_rowText :
    Text.Unambiguous (fun _ => True) fun row => (d.rowText row).toList := by
  have hcells : Text.Unambiguous (fun rest => rest.head? = some ')')
      (Text.joined fun v => (d.scalarText v).toList) :=
    (unambiguous_scalarText hd).joined (fun r => .inl rfl) (fun r hr => ⟨.inr hr, by simp [hr]⟩)
      (head?_scalarText hd)
  intro row row' r s _ _ heq
  simp only [toList_rowText, List.cons_append, List.append_assoc, List.cons.injEq, true_and] at heq
  obtain ⟨rfl, hrest⟩ := hcells rfl rfl heq
  exact ⟨rfl, (List.cons.inj hrest).2⟩

theorem unambiguous_rows :
    Text.Unambiguous (fun rest => rest = []) (Text.joined fun row => (d.rowText row).toList) :=
  (unambiguous_rowText hd).joined (fun _ => trivial) (fun r hr => ⟨trivial, by simp [hr]⟩)
    fun row r hr => by simp [toList_rowText] at hr

end Rows

namespace Dialect

variable (d : Dialect)

/-- The text of rows after the first line of an insert, if there are rows. -/
def valuesText (rows : Option (List (List Scalar))) : List Char :=
  rows.elim [] fun rows =>
    "\nVALUES ".toList ++ Text.joined (fun row => (d.rowText row).toList) rows

theorem toList_text_insert (i : Sql.Insert) :
    (d.text (i.print d)).toList = (d.insertHead i).toList ++ d.valuesText i.valueRows? := by
  cases h : i.valueRows? with
  | none =>
    rw [Sql.Insert.print, h, Option.map_none, Sql.optionClause, d.text_lines, List.map_singleton,
      d.text_clause, insertHead, valuesText]
    simp
  | some rows =>
    rw [d.text_insert h, valuesText]
    simp [Text.joined, String.toList_intercalate, Function.comp_def]

theorem valuesText_inj {d : Dialect} (hd : d.boolText = wordBool)
    {rows rows' : Option (List (List Scalar))} (h : d.valuesText rows = d.valuesText rows') :
    rows = rows' := by
  cases rows with
  | none =>
    cases rows' with
    | none => rfl
    | some rows' => cases h
  | some rows =>
    cases rows' with
    | none => cases h
    | some rows' =>
      have hrows := List.append_cancel_left h
      rw [← List.append_nil (Text.joined _ rows), ← List.append_nil (Text.joined _ rows')] at hrows
      rw [(unambiguous_rows hd rfl rfl hrows).1]

/-- In dialects that write truth values as words, the text of an insert into given columns of a
table determines its rows. -/
theorem generate_insert_eq_iff {d : Dialect} (hd : d = ansi ∨ d = postgres) {i j : Sql.Insert}
    (hinto : i.into = j.into) (hcolumns : i.columns = j.columns) :
    d.generate (.insert i) = d.generate (.insert j) ↔ i.valueRows? = j.valueRows? := by
  have hbool : d.boolText = wordBool := by rcases hd with rfl | rfl <;> rfl
  have hhead : d.insertHead j = d.insertHead i := by rw [insertHead, insertHead, hinto, hcolumns]
  constructor
  · intro h
    have htext : d.text (i.print d) = d.text (j.print d) := Except.ok.inj h
    rw [← String.toList_inj, toList_text_insert, toList_text_insert, hhead] at htext
    exact valuesText_inj hbool (List.append_cancel_left htext)
  · intro h
    have hprint : i.print d = j.print d := by
      rw [Sql.Insert.print, Sql.Insert.print, hinto, hcolumns, h]
    exact congrArg (fun pieces => Except.ok (d.text pieces)) hprint

end Dialect

/-- One cell that imitates two. -/
def insertImitating : Sql.Insert :=
  ⟨⟨["A"], none⟩, some ["a"], none, some [[.text "x\x27, \x27y"]], none⟩

/-- The two cells that it imitates, under the other key. -/
def insertImitated : Sql.Insert :=
  ⟨⟨["A"], none⟩, some ["a"], none, none, some [[.text "x", .text "y"]]⟩

theorem insertImitating_told :
    (Dialect.ansi.generate (.insert insertImitating) =
        Dialect.ansi.generate (.insert insertImitated) ↔
      insertImitating.valueRows? = insertImitated.valueRows?) ∧
    insertImitating.valueRows? ≠ insertImitated.valueRows? ∧
    Dialect.ansi.generate (.insert insertImitating) =
      .ok "INSERT INTO \"A\" (\"a\")\nVALUES (\x27x\x27\x27, \x27\x27y\x27)" ∧
    Dialect.ansi.generate (.insert insertImitated) =
      .ok "INSERT INTO \"A\" (\"a\")\nVALUES (\x27x\x27, \x27y\x27)" :=
  ⟨Dialect.generate_insert_eq_iff (.inl rfl) rfl rfl, by decide, by with_unfolding_all rfl,
    by with_unfolding_all rfl⟩

-- Where truth values are written as numbers, two inserts may have one text.
example :
    Dialect.mysql.generate (.insert ⟨⟨["A"], none⟩, none, none, some [[.bool true]], none⟩) =
      Dialect.mysql.generate
        (.insert ⟨⟨["A"], none⟩, none, none, some [[.number (.integer 1)]], none⟩) := by
  with_unfolding_all rfl

end QueryNotation
