import QueryNotation.Proofs.Placeholders
import QueryNotation.Proofs.ValueRows

/-! Rows side by side. Entries with the same names in the same order are written without their
names, and each drops its own nested fields. So a cell stands below another from the same field, in
all rows, exactly if the entries have their nested fields in the same places. -/

namespace QueryNotation

/-- The row of an entry has a cell for each of these names, in their order: the cell at a position
is the value of the field at this position once the nested fields are dropped, and the field has the
name at this position. -/
def Entry.RowUnder (e : Entry) (names : List String) (row : List Scalar) : Prop :=
  row.length = names.length ∧ ∀ j (hj : j < names.length) (hj' : j < row.length),
    (Entry.flat e)[j]? = some (names[j], row[j].toJson)

/-- The rows of all entries have a cell for each of the same names, in the same order. -/
def Aligned (es : List Entry) (rows : List (List Scalar)) : Prop :=
  ∃ names, ∀ i (hi : i < es.length) (hi' : i < rows.length), Entry.RowUnder es[i] names rows[i]

/-- The places of an entry's nested fields. -/
def Entry.nesting (e : Entry) : List Bool := e.map (·.2.isNested)

/-- In each place, either every entry or none has a nested field. -/
def NestedAlike (es : List Entry) : Prop := ∀ e ∈ es, ∀ e' ∈ es, Entry.nesting e = Entry.nesting e'

section Entries

theorem Entry.flat_cons_nested (k : String) {v : Json} (h : v.isNested) (e : Entry) :
    Entry.flat ((k, v) :: e) = Entry.flat e := by
  simp [Entry.flat, h]

theorem Entry.flat_cons_scalar (k : String) {v : Json} (h : v.isNested = false) (e : Entry) :
    Entry.flat ((k, v) :: e) = (k, v) :: Entry.flat e := by
  simp [Entry.flat, h]

/-- What is left of an entry are its scalars. -/
theorem Entry.flat_eq (e : Entry) :
    Entry.flat e = (Entry.scalars e).map fun field => (field.1, field.2.toJson) := by
  induction e with
  | nil => rfl
  | cons field e ih =>
    obtain ⟨k, v⟩ := field
    rcases v.nested_or_scalar with h | ⟨s, rfl⟩
    · rw [Entry.flat_cons_nested k h, Entry.scalars_cons_nested k e h, ih]
    · rw [Entry.flat_cons_scalar k s.isNested_toJson, Entry.scalars_cons_toJson, List.map_cons, ih]

/-- The names of the fields that are left, from all names and the places of the nested fields. -/
def keptNames : List String → List Bool → List String
  | k :: names, nested :: rest =>
    if nested then keptNames names rest else k :: keptNames names rest
  | _, _ => []

theorem Entry.flat_names (e : Entry) :
    (Entry.flat e).map Prod.fst = keptNames (e.map Prod.fst) (Entry.nesting e) := by
  induction e with
  | nil => rfl
  | cons field e ih =>
    obtain ⟨k, v⟩ := field
    have hnesting : Entry.nesting ((k, v) :: e) = v.isNested :: Entry.nesting e := rfl
    rw [hnesting, List.map_cons, keptNames, ← ih]
    cases h : v.isNested with
    | true => rw [Entry.flat_cons_nested k h, if_pos rfl]
    | false => rw [Entry.flat_cons_scalar k h, if_neg Bool.false_ne_true, List.map_cons]

theorem keptNames_subset (names : List String) (nesting : List Bool) :
    keptNames names nesting ⊆ names := by
  fun_induction keptNames names nesting with
  | case1 k names rest ih => exact List.subset_cons_of_subset k ih
  | case2 k names nested rest h ih => exact List.cons_subset_cons k ih
  | case3 => exact List.nil_subset _

/-- With distinct names, the names that are left tell the places of the nested fields. -/
theorem keptNames_inj {names : List String} (hnodup : names.Nodup) {nesting nesting' : List Bool}
    (hlength : nesting.length = names.length) (hlength' : nesting'.length = names.length)
    (h : keptNames names nesting = keptNames names nesting') : nesting = nesting' := by
  induction names generalizing nesting nesting' with
  | nil => rw [List.eq_nil_of_length_eq_zero hlength, List.eq_nil_of_length_eq_zero hlength']
  | cons k names ih =>
    obtain ⟨nested, rest, rfl⟩ := List.exists_cons_of_length_eq_add_one hlength
    obtain ⟨nested', rest', rfl⟩ := List.exists_cons_of_length_eq_add_one hlength'
    obtain ⟨hk, hnodup⟩ := List.nodup_cons.mp hnodup
    have ih := @ih hnodup rest rest' (Nat.succ.inj hlength) (Nat.succ.inj hlength')
    -- A name that one list keeps and the other drops would have to come again further on.
    have hagain {l : List Bool} {r : List String} (h : k :: r = keptNames names l) : False :=
      hk (keptNames_subset names l (h ▸ List.mem_cons_self))
    cases nested <;> cases nested'
    · rw [ih (List.cons.inj h).2]
    · exact (hagain h).elim
    · exact (hagain h.symm).elim
    · rw [ih h]

end Entries

theorem Entry.rowUnder_iff (e : Entry) (names : List String) :
    Entry.RowUnder e names ((Entry.scalars e).map Prod.snd) ↔
      (Entry.flat e).map Prod.fst = names := by
  rw [Entry.flat_eq, List.map_map]
  constructor
  · rintro ⟨hlength, hcells⟩
    refine List.ext_getElem (by simpa using hlength) fun j hj hj' => ?_
    have hcell := hcells j hj' (by simpa using hj)
    have hj'' : j < (Entry.scalars e).length := by simpa using hj
    rw [Entry.flat_eq, List.getElem?_map, List.getElem?_eq_getElem hj'', Option.map_some,
      Option.some.injEq, Prod.mk.injEq] at hcell
    rw [List.getElem_map]
    exact hcell.1
  · rintro rfl
    refine ⟨by simp, fun j hj hj' => ?_⟩
    have hj'' : j < (Entry.scalars e).length := by simpa using hj
    rw [Entry.flat_eq, List.getElem?_map, List.getElem?_eq_getElem hj'', Option.map_some,
      List.getElem_map, List.getElem_map]
    rfl

/-- The rows that are written for entries. -/
def entryRows (es : List Entry) : List (List Scalar) :=
  es.map fun e => (Entry.scalars e).map Prod.snd

/-- Rows are aligned exactly if the same names are left of all entries. -/
theorem aligned_entryRows_iff (es : List Entry) : Aligned es (entryRows es) ↔
    ∃ names, ∀ e ∈ es, (Entry.flat e).map Prod.fst = names := by
  constructor
  · rintro ⟨names, h⟩
    refine ⟨names, fun e he => ?_⟩
    obtain ⟨i, hi, rfl⟩ := List.getElem_of_mem he
    have hrow := h i hi (by simpa [entryRows] using hi)
    simpa only [entryRows, List.getElem_map, Entry.rowUnder_iff] using hrow
  · rintro ⟨names, h⟩
    refine ⟨names, fun i hi hi' => ?_⟩
    simp only [entryRows, List.getElem_map, Entry.rowUnder_iff]
    exact h _ (List.getElem_mem hi)

section SameNames

variable {es : List Entry} {names : List String} (hnames : ∀ e ∈ es, e.map Prod.fst = names)

include hnames

theorem aligned_of_nestedAlike (h : NestedAlike es) : Aligned es (entryRows es) := by
  rw [aligned_entryRows_iff]
  cases es with
  | nil => exact ⟨[], fun _ he => absurd he List.not_mem_nil⟩
  | cons e es =>
    refine ⟨(Entry.flat e).map Prod.fst, fun e' he' => ?_⟩
    rw [Entry.flat_names, Entry.flat_names, hnames e' he', hnames e List.mem_cons_self,
      h e' he' e List.mem_cons_self]

theorem nestedAlike_of_aligned (hnodup : names.Nodup) (h : Aligned es (entryRows es)) :
    NestedAlike es := by
  obtain ⟨kept, hkept⟩ := (aligned_entryRows_iff es).mp h
  have hlength (e : Entry) (he : e ∈ es) : (Entry.nesting e).length = names.length := by
    rw [← hnames e he, Entry.nesting, List.length_map, List.length_map]
  intro e he e' he'
  apply keptNames_inj hnodup (hlength e he) (hlength e' he')
  have hflat := (hkept e he).trans (hkept e' he').symm
  rwa [Entry.flat_names, Entry.flat_names, hnames e he, hnames e' he'] at hflat

end SameNames

/-- The text of a compiled insert or upsert that has entries ends with their rows. -/
theorem Compiler.entryRows_of_compileQuery {c : Compiler} {q : Query} {s : Statement} {p : Payload}
    {es : List Entry} {r : Compiled} (hs : q.statement? = some s) (hp : s.payload? = some p)
    (hes : p.entries = some es) (hne : es ≠ []) (h : (c.compileQuery q).result = .ok r) :
    ∃ t i, (q.lower c.nested 0).outcome = .ok (t, r.params) ∧ t.insert? = some i ∧
      i.valueRows? = some (entryRows es) ∧
      r.sql = c.dialect.insertHead i ++ "\nVALUES " ++
        ", ".intercalate ((entryRows es).map c.dialect.rowText) := by
  obtain ⟨t, pieces, hlower, hprint, htext⟩ := Compiler.compileQuery_ok h
  have hstatement := hlower
  rw [Query.lower, hs] at hstatement
  obtain ⟨i, into, hi, hinsert, -⟩ := Statement.insert_of_lower hp hstatement
  have hrows : i.valueRows? = some (entryRows es) := by
    have hentries := (Payload.collections_toInsert hinsert).1
    rw [hes, Option.getD_some] at hentries
    rw [Sql.Insert.valueRows?_entries (by simpa [hentries] using hne), hentries, List.map_map]
    rfl
  refine ⟨t, i, hlower, hi, hrows, ?_⟩
  have hgenerate : c.dialect.generate t = .ok r.sql := Outcome.map_eq_ok.mpr ⟨pieces, hprint, htext⟩
  rw [Dialect.generate_of_insert? hi, c.dialect.text_insert hrows] at hgenerate
  exact (Except.ok.inj hgenerate).symm

/-- The rows of entries with the same names in the same order are aligned if the entries have their
nested fields in the same places. With distinct names they are aligned only then. -/
theorem Compiler.aligned_of_compileQuery {d : Dialect} {q : Query} {s : Statement} {p : Payload}
    {es : List Entry} {names : List String} {r : Compiled} (hs : q.statement? = some s)
    (hp : s.payload? = some p) (hes : p.entries = some es) (hne : es ≠ [])
    (hnames : ∀ e ∈ es, e.map Prod.fst = names)
    (h : (Compiler.compileQuery ⟨d, .skip⟩ q).result = .ok r) :
    ∃ t i rows, (q.lower .skip 0).outcome = .ok (t, r.params) ∧ t.insert? = some i ∧
      i.valueRows? = some rows ∧
      r.sql = d.insertHead i ++ "\nVALUES " ++ ", ".intercalate (rows.map d.rowText) ∧
      rows.length = es.length ∧ (NestedAlike es → Aligned es rows) ∧
      (names.Nodup → (Aligned es rows ↔ NestedAlike es)) := by
  obtain ⟨t, i, hlower, hi, hrows, hsql⟩ := entryRows_of_compileQuery hs hp hes hne h
  refine ⟨t, i, entryRows es, hlower, hi, hrows, hsql, List.length_map _,
    aligned_of_nestedAlike hnames, fun hnodup => ?_⟩
  exact ⟨nestedAlike_of_aligned hnames hnodup, aligned_of_nestedAlike hnames⟩

/-- An insert of entries into a table. -/
def insertEntries (es : List Entry) : Query where
  select := none
  insert := some {
    into := some ⟨["T"], none, none, false⟩
    payload := { columns := none, entries := some es, values := none, rows := none }
    label := none }
  update := none
  delete := none
  upsert := none
  others := []

def alikeEntries : List Entry :=
  [[("a", .number (.integer 1)), ("b", .array []), ("c", .text "x")],
    [("a", .null), ("b", .object []), ("c", .bool true)]]

theorem alikeEntries_aligned : ∃ r t i rows,
    (Compiler.standard.compileQuery (insertEntries alikeEntries)).result = .ok r ∧
    ((insertEntries alikeEntries).lower .skip 0).outcome = .ok (t, r.params) ∧
    t.insert? = some i ∧ i.valueRows? = some rows ∧ rows.length = 2 ∧ NestedAlike alikeEntries ∧
    Aligned alikeEntries rows ∧
    r.sql = "INSERT INTO \"T\"\nVALUES (1, \x27x\x27), (NULL, TRUE)" := by
  have halike : NestedAlike alikeEntries := by
    simp [NestedAlike, alikeEntries, Entry.nesting, Json.isNested]
  obtain ⟨t, i, rows, hlower, hi, hrows, -, hlength, haligned, -⟩ :=
    @Compiler.aligned_of_compileQuery .ansi (insertEntries alikeEntries) _ _ alikeEntries
      ["a", "b", "c"] _ rfl rfl rfl (by simp [alikeEntries]) (by simp [alikeEntries]) rfl
  exact ⟨_, t, i, rows, rfl, hlower, hi, hrows, hlength, halike, haligned halike,
    by with_unfolding_all rfl⟩

def unlikeEntries : List Entry :=
  [[("a", .number (.integer 1)), ("b", .number (.integer 2))],
    [("a", .array [.number (.integer 3)]), ("b", .number (.integer 4))]]

/-- A field that is nested in one entry and not in another moves the cells after it. -/
theorem rows_not_aligned : ¬ ∀ (d : Dialect) (q : Query) (s : Statement) (p : Payload)
    (es : List Entry) (names : List String) (r : Compiled), q.statement? = some s →
    s.payload? = some p → p.entries = some es → es ≠ [] → (∀ e ∈ es, e.map Prod.fst = names) →
    (Compiler.compileQuery ⟨d, .skip⟩ q).result = .ok r →
    ∃ t i rows, (q.lower .skip 0).outcome = .ok (t, r.params) ∧ t.insert? = some i ∧
      i.valueRows? = some rows ∧
      r.sql = d.insertHead i ++ "\nVALUES " ++ ", ".intercalate (rows.map d.rowText) ∧
      rows.length = es.length ∧ Aligned es rows := by
  intro h
  obtain ⟨t, i, rows, hlower, hi, hrows, -, -, kept, hkept⟩ :=
    h .ansi (insertEntries unlikeEntries) _ _ unlikeEntries ["a", "b"] _ rfl rfl rfl
      (by simp [unlikeEntries]) (by simp [unlikeEntries]) rfl
  cases hlower
  cases hi
  cases hrows
  have hfirst : 2 = kept.length := (hkept 0 (by decide) (by decide)).1
  have hsecond : 1 = kept.length := (hkept 1 (by decide) (by decide)).1
  omega

end QueryNotation
