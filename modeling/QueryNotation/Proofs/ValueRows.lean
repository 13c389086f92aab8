import QueryNotation.Proofs.Clauses
import QueryNotation.Proofs.Faults
import QueryNotation.Proofs.NestedFields
import QueryNotation.Proofs.NormalForm

/-! The rows that an insert or upsert writes. They come from the first collection of the payload
that has any, one row for each of its entries or lists of cells and in the same order. A query that
is valid and lowered has such rows, so its text ends with a list of values and no row in it is
empty. -/

namespace QueryNotation

/-- The scalars of an entry, in the order of its fields. Only nested fields are left out. -/
inductive Entry.Row : Entry → List Scalar → Prop
  | nil : Entry.Row [] []
  | scalar (k : String) (s : Scalar) {e : Entry} {row : List Scalar} (rest : Entry.Row e row) :
      Entry.Row ((k, s.toJson) :: e) (s :: row)
  | nested (k : String) {v : Json} (h : v.isNested) {e : Entry} {row : List Scalar}
      (rest : Entry.Row e row) : Entry.Row ((k, v) :: e) row

/-- The rows of a payload: those of its entries, else of its values, else of its rows. A collection
that is missing is one without items. -/
inductive Payload.Writes (p : Payload) : List (List Scalar) → Prop
  | entries {es : List Entry} {rows : List (List Scalar)} (h : p.entries.getD [] = es)
      (hne : es ≠ []) (length : rows.length = es.length)
      (row : ∀ i (hi : i < es.length) (hi' : i < rows.length), Entry.Row es[i] rows[i]) :
      p.Writes rows
  | values {cells : List (List Cell)} (hentries : p.entries.getD [] = [])
      (h : p.values.getD [] = cells) (hne : cells ≠ []) :
      p.Writes (cells.map (·.map Cell.value))
  | rows {cells : List (List Cell)} (hentries : p.entries.getD [] = [])
      (hvalues : p.values.getD [] = []) (h : p.rows.getD [] = cells) (hne : cells ≠ []) :
      p.Writes (cells.map (·.map Cell.value))

def Statement.payload? : Statement → Option Payload
  | .insert i => some i.payload
  | .upsert u => some u.payload
  | _ => none

def Sql.Statement.insert? : Sql.Statement → Option Sql.Insert
  | .insert i => some i
  | .upsert i => some i
  | _ => none

namespace Dialect

variable (d : Dialect)

/-- The text of a literal. -/
def scalarText : Scalar → String
  | .null => "NULL"
  | .bool b => d.boolText b
  | .number n => n.text
  | .text s => Text.quoted textQuote s

/-- The text of a row. -/
def rowText (row : List Scalar) : String := "(" ++ ", ".intercalate (row.map d.scalarText) ++ ")"

/-- The first line of an insert. -/
def insertHead (i : Sql.Insert) : String :=
  "INSERT INTO " ++ d.text (i.into.printTable ++ Sql.insertColumns i.columns)

end Dialect

theorem Entry.row_scalars (e : Entry) : Entry.Row e ((Entry.scalars e).map Prod.snd) := by
  induction e with
  | nil => exact .nil
  | cons field e ih =>
    obtain ⟨k, v⟩ := field
    rcases v.nested_or_scalar with h | ⟨s, rfl⟩
    · rw [Entry.scalars_cons_nested k e h]
      exact .nested k h ih
    · rw [Entry.scalars_cons_toJson]
      exact .scalar k s ih

theorem Entry.row_getElem {es : List Entry} (i : Nat) (hi : i < es.length)
    (hi' : i < (es.map fun e => (Entry.scalars e).map Prod.snd).length) :
    Entry.Row es[i] (es.map fun e => (Entry.scalars e).map Prod.snd)[i] := by
  rw [List.getElem_map]
  exact Entry.row_scalars es[i]

section Choice

variable {i : Sql.Insert}

theorem Sql.Insert.valueRows?_entries (h : i.entries.getD [] ≠ []) :
    i.valueRows? = some ((i.entries.getD []).map (·.map Prod.snd)) := by
  simp [valueRows?, h]

theorem Sql.Insert.valueRows?_values (hentries : i.entries.getD [] = [])
    (h : i.values.getD [] ≠ []) : i.valueRows? = some (i.values.getD []) := by
  simp [valueRows?, hentries, h]

theorem Sql.Insert.valueRows?_rows (hentries : i.entries.getD [] = [])
    (hvalues : i.values.getD [] = []) (h : i.rows.getD [] ≠ []) :
    i.valueRows? = some (i.rows.getD []) := by
  simp [valueRows?, hentries, hvalues, h]

theorem Sql.Insert.valueRows?_none (hentries : i.entries.getD [] = [])
    (hvalues : i.values.getD [] = []) (h : i.rows.getD [] = []) : i.valueRows? = none := by
  simp [valueRows?, hentries, hvalues, h]

/-- The rows that are written are there, and each of them has a value. -/
theorem Sql.Insert.Normal.valueRows? (hi : i.Normal) {rows : List (List Scalar)}
    (h : i.valueRows? = some rows) : rows ≠ [] ∧ ∀ row ∈ rows, row ≠ [] := by
  have hne : rows ≠ [] := by simpa using List.find?_some h
  have hmem := List.mem_of_find?_eq_some h
  refine ⟨hne, ?_⟩
  simp only [List.mem_cons, List.not_mem_nil, or_false] at hmem
  rcases hmem with rfl | rfl | rfl
  · cases hentries : i.entries with
    | none => simp
    | some es => simpa using hi.entries es hentries
  · cases hvalues : i.values with
    | none => simp
    | some vs => simpa using hi.values vs hvalues
  · cases hrows : i.rows with
    | none => simp
    | some rs => simpa using hi.rows rs hrows

end Choice

theorem Payload.collections_toInsert {p : Payload} {into : Sql.Ref} {i : Sql.Insert}
    (h : p.toInsert into = .ok i) :
    i.entries.getD [] = (p.entries.getD []).map Entry.scalars ∧
      i.values.getD [] = (p.values.getD []).map (·.map Cell.value) ∧
      i.rows.getD [] = (p.rows.getD []).map (·.map Cell.value) := by
  simp only [toInsert, assemble, Outcome.bind_eq_ok, Outcome.pure_eq_ok] at h
  obtain ⟨_, _, _, _, _, _, rfl⟩ := h
  refine ⟨?_, ?_, ?_⟩
  · cases p.entries <;> rfl
  · cases p.values <;> rfl
  · cases p.rows <;> rfl

/-- A payload that is lowered has rows to write exactly if it is not empty. -/
theorem Payload.valueRows?_cases {p : Payload} {into : Sql.Ref} {i : Sql.Insert}
    (h : p.toInsert into = .ok i) :
    p.isEmpty ∧ i.valueRows? = none ∨
      ¬ p.isEmpty ∧ ∃ rows, i.valueRows? = some rows ∧ p.Writes rows := by
  obtain ⟨hentries, hvalues, hrows⟩ := collections_toInsert h
  by_cases he : p.entries.getD [] = []
  · rw [he, List.map_nil] at hentries
    by_cases hv : p.values.getD [] = []
    · rw [hv, List.map_nil] at hvalues
      by_cases hr : p.rows.getD [] = []
      · rw [hr, List.map_nil] at hrows
        exact .inl ⟨by simp [Payload.isEmpty, he, hv, hr],
          Sql.Insert.valueRows?_none hentries hvalues hrows⟩
      · have hchosen := Sql.Insert.valueRows?_rows hentries hvalues (by simpa [hrows] using hr)
        rw [hrows] at hchosen
        exact .inr ⟨by simp [Payload.isEmpty, hr], _, hchosen, .rows he hv rfl hr⟩
    · have hchosen := Sql.Insert.valueRows?_values hentries (by simpa [hvalues] using hv)
      rw [hvalues] at hchosen
      exact .inr ⟨by simp [Payload.isEmpty, hv], _, hchosen, .values he rfl hv⟩
  · have hchosen := Sql.Insert.valueRows?_entries (i := i) (by simpa [hentries] using he)
    rw [hentries, List.map_map] at hchosen
    exact .inr ⟨by simp [Payload.isEmpty, he], _, hchosen,
      .entries rfl he (List.length_map _) Entry.row_getElem⟩

theorem Payload.toInsert_of_lowerInto {policy : NestedPolicy} {statement : Keyword}
    {target : Option Ref} {p : Payload} {i : Sql.Insert}
    (h : (p.lowerInto policy statement target).outcome = .ok i) :
    ∃ into, p.toInsert into = .ok i := by
  rcases lowerInto_cases statement target with ⟨into, -, hinto⟩ | ⟨e, -, he⟩
  · rw [hinto, lower_eq, Lowered.meeting_eq_ok] at h
    exact ⟨into, h.1⟩
  · rw [he] at h
    cases h

section Text

variable (d : Dialect)

theorem Dialect.text_singleton_scalar (v : Scalar) :
    d.text [Sql.printScalar d v] = d.scalarText v := by
  cases v <;> simp [Dialect.text, Sql.printScalar, Dialect.pieceText, Dialect.scalarText]

theorem Dialect.text_row (row : List Scalar) :
    d.text (Sql.Piece.parens (Sql.Piece.commas (row.map fun v => [Sql.printScalar d v]))) =
      d.rowText row := by
  rw [text_parens, Sql.Piece.commas, d.text_intercalate, List.map_map, rowText]
  congr 3
  exact List.map_congr_left fun v _ => d.text_singleton_scalar v

theorem Dialect.text_insert {i : Sql.Insert} {rows : List (List Scalar)}
    (h : i.valueRows? = some rows) :
    d.text (i.print d) =
      d.insertHead i ++ "\nVALUES " ++ ", ".intercalate (rows.map d.rowText) := by
  have hrows : d.text (Sql.printRows d rows) = ", ".intercalate (rows.map d.rowText) := by
    rw [Sql.printRows, Sql.Piece.commas, d.text_intercalate, List.map_map]
    exact congrArg _ (List.map_congr_left fun row _ => d.text_row row)
  rw [Sql.Insert.print, h, Option.map_some, Sql.optionClause, d.text_lines, List.map_cons,
    List.map_singleton, d.text_clause, d.text_clause, hrows, insertHead, ← String.toList_inj]
  simp [String.toList_intercalate]

end Text

section Statements

variable {s : Statement} {p : Payload} {t : Sql.Statement}

theorem Statement.insert_of_lower {policy : NestedPolicy} {n n' : Nat} (hp : s.payload? = some p)
    (h : (s.lower policy n).outcome = .ok (t, n')) :
    ∃ i into, t.insert? = some i ∧ p.toInsert into = .ok i ∧ i.Normal := by
  cases s with
  | insert x =>
    obtain rfl := Option.some.inj hp
    obtain ⟨i, hi, ⟨⟩⟩ := Outcome.map_eq_ok.mp h
    obtain ⟨into, hinto⟩ := Payload.toInsert_of_lowerInto hi
    exact ⟨i, into, rfl, hinto, Payload.lowerInto_normal hi⟩
  | upsert x =>
    obtain rfl := Option.some.inj hp
    obtain ⟨i, hi, ⟨⟩⟩ := Outcome.map_eq_ok.mp h
    obtain ⟨into, hinto⟩ := Payload.toInsert_of_lowerInto hi
    exact ⟨i, into, rfl, hinto, Payload.lowerInto_normal hi⟩
  | _ => cases hp

theorem Payload.not_isEmpty_of_required {o : Option Ref} {missing empty : ValidationError}
    (h : (if o.isNone then throw missing else if p.isEmpty then throw empty else pure () :
      Except ValidationError Unit) = .ok ()) : ¬ p.isEmpty := by
  intro hempty
  rw [if_pos hempty] at h
  split at h
  · exact Outcome.throw_ne_ok h
  · exact Outcome.throw_ne_ok h

theorem Statement.not_isEmpty_of_validate (hp : s.payload? = some p)
    (h : s.validate = .ok ()) : ¬ p.isEmpty := by
  cases s with
  | insert x =>
    obtain rfl := Option.some.inj hp
    exact Payload.not_isEmpty_of_required h
  | upsert x =>
    obtain rfl := Option.some.inj hp
    exact Payload.not_isEmpty_of_required h
  | _ => cases hp

theorem Dialect.generate_of_insert? {i : Sql.Insert} (h : t.insert? = some i) (d : Dialect) :
    d.generate t = .ok (d.text (i.print d)) := by
  cases t with
  | insert x =>
    obtain rfl := Option.some.inj h
    rfl
  | upsert x =>
    obtain rfl := Option.some.inj h
    rfl
  | _ => cases h

end Statements

/-- The rows of a lowered insert or upsert are those of its payload. They are missing exactly if the
payload is empty, which no valid query has, and the text of a valid query ends with them. -/
theorem Query.rows_of_lower {policy : NestedPolicy} {q : Query} {s : Statement} {p : Payload}
    {n n' : Nat} {t : Sql.Statement} (hs : q.statement? = some s) (hp : s.payload? = some p)
    (h : (q.lower policy n).outcome = .ok (t, n')) :
    ∃ i, t.insert? = some i ∧ p.isEmpty = i.valueRows?.isNone ∧
      (q.validate = .ok () → ∃ rows, i.valueRows? = some rows ∧ rows ≠ [] ∧
        (∀ row ∈ rows, row ≠ []) ∧ p.Writes rows ∧
        ∀ d : Dialect, d.generate t =
          .ok (d.insertHead i ++ "\nVALUES " ++ ", ".intercalate (rows.map d.rowText))) := by
  rw [Query.lower, hs] at h
  obtain ⟨i, into, hi, hinsert, hnormal⟩ := Statement.insert_of_lower hp h
  refine ⟨i, hi, ?_, fun hvalid => ?_⟩
  · rcases Payload.valueRows?_cases hinsert with ⟨hempty, hnone⟩ | ⟨hempty, rows, hrows, -⟩
    · simp [hempty, hnone]
    · simp [hempty, hrows]
  · obtain ⟨s', hs', hvalid'⟩ := Query.statement_of_validate hvalid
    obtain rfl := Option.some.inj (hs.symm.trans hs')
    have hne := Statement.not_isEmpty_of_validate hp hvalid'
    rcases Payload.valueRows?_cases hinsert with ⟨hempty, -⟩ | ⟨-, rows, hrows, hwrites⟩
    · exact absurd hempty hne
    · obtain ⟨hnonempty, hfull⟩ := hnormal.valueRows? hrows
      refine ⟨rows, hrows, hnonempty, hfull, hwrites, fun d => ?_⟩
      rw [Dialect.generate_of_insert? hi, d.text_insert hrows]

/-- An upsert whose first entry has a nested field; its values are passed over. -/
def upsertWithNested : Query where
  select := none
  insert := none
  update := none
  delete := none
  upsert := some {
    upsert := some ⟨["A"], none, none, false⟩
    into := none
    payload := {
      columns := some ["b", "a"]
      entries := some [
        [("b", .text "it\x27s"), ("c", .array [.null]), ("a", .bool true)],
        [("b", .null), ("a", .number (.integer 2))]]
      values := some [[.val .null]]
      rows := none } }
  others := []

theorem upsertWithNested_rows :
    upsertWithNested.validate = .ok () ∧
      ∃ t i rows, (upsertWithNested.lower .skip 0).outcome = .ok (t, 0) ∧ t.insert? = some i ∧
        i.valueRows? = some rows ∧ rows.length = 2 ∧
        Dialect.mysql.generate t = .ok (Dialect.mysql.insertHead i ++ "\nVALUES " ++
          ", ".intercalate (rows.map Dialect.mysql.rowText)) ∧
        Dialect.mysql.generate t =
          .ok ("INSERT INTO \x60A\x60 (\x60b\x60, \x60a\x60)" ++
            "\nVALUES (\x27it\x27\x27s\x27, 1), (NULL, 2)") := by
  obtain ⟨i, hi, -, h⟩ := @Query.rows_of_lower .skip upsertWithNested _ _ 0 0 _ rfl rfl rfl
  obtain ⟨rows, hrows, -, -, -, htext⟩ := h rfl
  cases hi
  cases hrows
  exact ⟨rfl, _, _, _, rfl, rfl, rfl, rfl, htext .mysql, by with_unfolding_all rfl⟩

end QueryNotation
