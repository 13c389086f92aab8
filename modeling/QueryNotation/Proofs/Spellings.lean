import Mathlib.Data.List.Defs
import QueryNotation.Proofs.KeyOrder
import QueryNotation.Proofs.Roundtrip
import QueryNotation.Proofs.ValueRows

/-! The spellings of a payload. Rows of cells may stand under either of two keys, in an insert or an
upsert, and a cell may be a scalar or an object that holds one. `Spells` says which queries write
given rows for a given table, and all of them have one text or one error, `Compiler.rowsText`. -/

namespace QueryNotation

/-- One spelling of a cell and another: a scalar, or an object that holds it. -/
inductive Cell.Respelled : Json → Json → Prop
  | refl (v : Json) : Cell.Respelled v v
  | wrap (x : Scalar) : Cell.Respelled x.toJson (.object [("val", x.toJson)])
  | unwrap (x : Scalar) : Cell.Respelled (.object [("val", x.toJson)]) x.toJson

/-- A key under which a payload holds rows of cells. -/
inductive RowKey where
  | values
  | rows
deriving DecidableEq, Repr

namespace RowKey

def text : RowKey → String
  | .values => "values"
  | .rows => "rows"

def other : RowKey → RowKey
  | .values => .rows
  | .rows => .values

/-- The payload that holds its cells under a key. -/
def payload (columns : Option (List String)) (cells : List (List Cell)) : RowKey → Payload
  | .values => ⟨columns, none, some cells, none⟩
  | .rows => ⟨columns, none, none, some cells⟩

/-- The insert that holds its rows under a key. -/
def insert (into : Sql.Ref) (columns : Option (List String)) (rows : List (List Scalar)) :
    RowKey → Sql.Insert
  | .values => ⟨into, columns, none, some rows, none⟩
  | .rows => ⟨into, columns, none, none, some rows⟩

end RowKey

/-- An object holds these columns and, under one of the two keys, these cells. -/
structure HoldsRows (columns : Option Json) (cells : List (List Json)) (key : RowKey)
    (body : Json) : Prop where
  columns : body.get? "columns" = columns
  entries : body.get? "entries" = none
  cells : body.get? key.text = some (.array (cells.map .array))
  other : body.get? key.other.text = none

/-- The queries that write these cells for the table that `r` names. An upsert names it under
`upsert`, and then any reference may stand under `into`, or under `into` alone. -/
inductive Spells (r : Json) (columns : Option Json) (cells : List (List Json)) : Json → Prop
  | insert {key : RowKey} {members : List (String × Json)}
      (rows : HoldsRows columns cells key (.object members))
      (into : (Json.object members).get? "into" = some r)
      (label : (Json.object members).get? "as" = none) :
      Spells r columns cells (.object [("INSERT", .object members)])
  | upsert {key : RowKey} {members : List (String × Json)}
      (rows : HoldsRows columns cells key (.object members))
      (upsert : (Json.object members).get? "upsert" = some r)
      (into : ∀ v ∈ (Json.object members).get? "into", (Ref.form.ofJson? v).isSome) :
      Spells r columns cells (.object [("UPSERT", .object members)])
  | upsertInto {key : RowKey} {members : List (String × Json)}
      (rows : HoldsRows columns cells key (.object members))
      (upsert : (Json.object members).get? "upsert" = none)
      (into : (Json.object members).get? "into" = some r) :
      Spells r columns cells (.object [("UPSERT", .object members)])

/-- The payload that is read from columns and cells, if all of them can be read. -/
def RowKey.read? (key : RowKey) (columns : Option Json) (cells : List (List Json)) :
    Option Payload := do
  let columns ← optional? (Reading.list? Reading.text?) (columns.map Json.reading)
  let cells ← Cell.rowsOfReading? (Json.array (cells.map .array)).reading
  some (key.payload columns cells)

/-- The columns and the scalars of that payload. -/
def readRows? (columns : Option Json) (cells : List (List Json)) :
    Option (Option (List String) × List (List Scalar)) := do
  let columns ← optional? (Reading.list? Reading.text?) (columns.map Json.reading)
  let rows ← cells.mapM (·.mapM fun v => (Cell.ofReading? v.reading).map Cell.value)
  some (columns, rows)

section Reading

theorem Cell.Respelled.value {v v' : Json} (h : Cell.Respelled v v') :
    (Cell.ofReading? v'.reading).map Cell.value = (Cell.ofReading? v.reading).map Cell.value := by
  have hscalar := fun x => Cell.ofReading?_toJson (.scalar x)
  have hval := fun x => Cell.ofReading?_toJson (.val x)
  simp only [Cell.toJson] at hscalar hval
  cases h with
  | refl => rfl
  | wrap x => rw [hval, hscalar]; rfl
  | unwrap x => rw [hval, hscalar]; rfl

theorem mapM_congr_of_forall₂ {R : α → α → Prop} {f : α → Option β}
    (hf : ∀ a a', R a a' → f a' = f a) {l l' : List α} (h : List.Forall₂ R l l') :
    l'.mapM f = l.mapM f := by
  induction h with
  | nil => rfl
  | cons hhead _ ih => rw [List.mapM_cons, List.mapM_cons, hf _ _ hhead, ih]

/-- The spelling of a cell does not change what is read. -/
theorem readRows?_congr (columns : Option Json) {cells cells' : List (List Json)}
    (h : List.Forall₂ (List.Forall₂ Cell.Respelled) cells cells') :
    readRows? columns cells' = readRows? columns cells := by
  have hrows := mapM_congr_of_forall₂
    (fun _ _ hrow => mapM_congr_of_forall₂ (fun _ _ hcell => hcell.value) hrow) h
  rw [readRows?, readRows?, hrows]

theorem Cell.values_rowsOfReading? (cells : List (List Json)) :
    (Cell.rowsOfReading? (Json.array (cells.map .array)).reading).map (·.map (·.map Cell.value)) =
      cells.mapM (·.mapM fun v => (Cell.ofReading? v.reading).map Cell.value) := by
  rw [Cell.rowsOfReading?, Reading.list?_map]
  simp only [Reading.list?_map, Json.list?_array, List.mapM_map, Function.comp_def]

theorem Cell.rowsOfReading?_ne_nil {cells : List (List Json)} {rows : List (List Cell)}
    (h : Cell.rowsOfReading? (Json.array (cells.map .array)).reading = some rows)
    (hne : cells ≠ []) : rows ≠ [] := by
  obtain ⟨row, rest, rfl⟩ := List.exists_cons_of_ne_nil hne
  rw [Cell.rowsOfReading?, Json.list?_array, List.map_cons, List.mapM_cons] at h
  simp only [Option.bind_eq_bind, Option.bind_eq_some_iff, Option.pure_def, Option.some.injEq] at h
  obtain ⟨_, _, _, _, rfl⟩ := h
  exact List.cons_ne_nil _ _

/-- The payload of an object that holds rows. -/
theorem HoldsRows.payload {columns : Option Json} {cells : List (List Json)} {key : RowKey}
    {members : List (String × Json)} (h : HoldsRows columns cells key (.object members)) :
    Payload.ofMembers? (lastWins (members.map fun (k, v) => (k, v.reading))) =
      key.read? columns cells := by
  have harray : ∀ items, optional? Cell.rowsOfReading? (some (Json.array items).reading) = _ :=
    fun items => optional?_reading_some nofun
  rw [Payload.ofMembers?]
  simp only [Json.member?_reading, Option.bind_eq_bind, Option.bind_some, h.columns, h.entries]
  cases key with
  | values =>
    rw [show (Json.object members).get? "values" = _ from h.cells,
      show (Json.object members).get? "rows" = _ from h.other]
    simp only [Option.map_some, Option.map_none, harray, Option.bind_map]
    rfl
  | rows =>
    rw [show (Json.object members).get? "rows" = _ from h.cells,
      show (Json.object members).get? "values" = _ from h.other]
    simp only [Option.map_some, Option.map_none, harray, Option.bind_map]
    rfl

end Reading

namespace RowKey

variable (key : RowKey) (columns : Option (List String))

theorem print_insert (d : Dialect) (into : Sql.Ref) (rows : List (List Scalar)) :
    (key.insert into columns rows).print d = (values.insert into columns rows).print d := by
  cases key with
  | values => rfl
  | rows => cases rows <;> rfl

theorem isEmpty_payload (cells : List (List Cell)) :
    (key.payload columns cells).isEmpty = cells.isEmpty := by
  cases key <;> simp [payload, Payload.isEmpty]

/-- A payload without entries is lowered alike under both policies and for both keys. -/
theorem lowerInto_payload (policy : NestedPolicy) (k : Keyword) (target : Ref)
    (cells : List (List Cell)) :
    ((key.payload columns cells).lowerInto policy k (some target)).outcome = do
      let into ← target.toTable
      Payload.checkRows (some (cells.map (·.map Cell.value)))
      return key.insert into columns (cells.map (·.map Cell.value)) := by
  have hflat : (key.payload columns cells).nestedFields = [] := by cases key <;> rfl
  rw [Payload.lowerInto]
  cases target.toTable with
  | error e => rfl
  | ok into =>
    dsimp only
    rw [Payload.lower_of_flat hflat]
    cases key with
    | values =>
      change (Payload.checkRows (some (cells.map (·.map Cell.value))) >>= fun _ => _) = _
      rfl
    | rows => rfl

end RowKey

namespace Compiler

variable (c : Compiler)

/-- The text of rows for a table. It needs a name for the table and a value in every row. -/
def rowsText (target : Ref) (columns : Option (List String)) (rows : List (List Scalar)) :
    Except Failure String :=
  Except.mapError .lowering do
    let into ← target.toTable
    Payload.checkRows (some rows)
    return c.dialect.text (Sql.Insert.print c.dialect ⟨into, columns, none, some rows, none⟩)

/-- The text of a statement. -/
def statementText (s : Statement) : Except Failure String := do
  s.validate.mapError .validation
  let lowered ← (s.lower c.nested 0).outcome.mapError .lowering
  (c.dialect.generate lowered.1).mapError .printing

/-- A query with one keyword is compiled to the text of the statement under it. -/
theorem compileJson_eq_statementText {k : Keyword} {body : Json} (hbody : body.isObject) :
    (c.compileJson (.object [(k.text, body)])).result =
      ((Statement.ofBody? k body).map c.statementText).getD (.error (.validation .malformed)) := by
  rw [compileJson, Query.ofValidJson_single hbody]
  cases Statement.ofBody? k body with
  | none => rfl
  | some s =>
    have hquery : s.toQuery.validate = s.validate := s.validate_toQuery
    have hlower : s.toQuery.lower c.nested 0 = s.lower c.nested 0 := by
      rw [Query.lower, s.statement?_toQuery]
    simp only [Option.map_some, Option.getD_some, statementText]
    cases hvalid : s.validate with
    | error e => rfl
    | ok =>
      change ((c.compileQuery s.toQuery).map Compiled.sql).result = _
      rw [compileQuery, hquery, hvalid]
      simp only [compileValid, hlower]
      cases (s.lower c.nested 0).outcome with
      | error e => rfl
      | ok lowered =>
        obtain ⟨tree, params⟩ := lowered
        dsimp only
        change _ = (c.dialect.generate tree).mapError Failure.printing
        cases c.dialect.generate tree <;> rfl

/-- The text of a payload is that of its rows, in either statement. -/
theorem lowerInto_rowsText {statement : Sql.Insert → Sql.Statement}
    (hstatement : statement = .insert ∨ statement = .upsert) (k : Keyword) (target : Ref)
    (key : RowKey) (columns : Option (List String)) (cells : List (List Cell)) :
    (do
      let lowered ← (((key.payload columns cells).lowerInto c.nested k (some target)).map fun i =>
        (statement i, 0)).outcome.mapError Failure.lowering
      (c.dialect.generate lowered.1).mapError Failure.printing) =
      c.rowsText target columns (cells.map (·.map Cell.value)) := by
  have hgenerate : ∀ i, c.dialect.generate (statement i) =
      .ok (c.dialect.text (i.print c.dialect)) := by
    intro i
    rcases hstatement with rfl | rfl <;> rfl
  rw [Lowered.map, RowKey.lowerInto_payload, rowsText]
  cases target.toTable with
  | error e => rfl
  | ok into =>
    cases Payload.checkRows (some (cells.map (·.map Cell.value))) with
    | error e => rfl
    | ok =>
      change (c.dialect.generate _).mapError _ = _
      rw [hgenerate, RowKey.print_insert]
      rfl

variable {target : Ref} {key : RowKey} {columns : Option (List String)} {cells : List (List Cell)}

theorem statementText_insert (hne : cells ≠ []) :
    c.statementText (.insert ⟨some target, key.payload columns cells, none⟩) =
      c.rowsText target columns (cells.map (·.map Cell.value)) := by
  have hvalid : (Statement.insert ⟨some target, key.payload columns cells, none⟩).validate =
      .ok () := by
    rw [Statement.validate, Insert.validate, RowKey.isEmpty_payload,
      List.isEmpty_eq_false_iff.mpr hne]
    rfl
  rw [statementText, hvalid]
  exact c.lowerInto_rowsText (.inl rfl) .insert target key columns cells

theorem statementText_upsert {u : Upsert} (htarget : u.target = some target)
    (hpayload : u.payload = key.payload columns cells) (hne : cells ≠ []) :
    c.statementText (.upsert u) = c.rowsText target columns (cells.map (·.map Cell.value)) := by
  have hvalid : (Statement.upsert u).validate = .ok () := by
    rw [Statement.validate, Upsert.validate, hpayload, htarget, RowKey.isEmpty_payload,
      List.isEmpty_eq_false_iff.mpr hne]
    rfl
  rw [statementText, hvalid, Statement.lower, hpayload, htarget]
  exact c.lowerInto_rowsText (.inr rfl) .upsert target key columns cells

/-- A statement over a payload of rows is compiled to the text of the rows. -/
theorem result_of_read? {k : Keyword} {members : List (String × Json)} {columns : Option Json}
    {cells : List (List Json)} {statement : Payload → Statement}
    (hread : Statement.ofBody? k (.object members) = (key.read? columns cells).map statement)
    (htext : ∀ columns cells, cells ≠ [] → c.statementText (statement (key.payload columns cells)) =
      c.rowsText target columns (cells.map (·.map Cell.value)))
    (hne : cells ≠ []) :
    (c.compileJson (.object [(k.text, .object members)])).result =
      ((readRows? columns cells).map fun p => c.rowsText target p.1 p.2).getD
        (.error (.validation .malformed)) := by
  rw [compileJson_eq_statementText c rfl, hread, RowKey.read?, readRows?,
    ← Cell.values_rowsOfReading?]
  cases optional? (Reading.list? Reading.text?) (columns.map Json.reading) with
  | none => rfl
  | some names =>
    cases hrows : Cell.rowsOfReading? (Json.array (cells.map .array)).reading with
    | none => rfl
    | some rows => exact htext names rows (Cell.rowsOfReading?_ne_nil hrows hne)

end Compiler

section Spellings

variable {columns : Option Json} {cells : List (List Json)} {key : RowKey}
  {members : List (String × Json)} (h : HoldsRows columns cells key (.object members))

include h

theorem HoldsRows.ofBody?_insert {into : Option Ref}
    (hinto : optional? Ref.form.ofReading? (((Json.object members).get? "into").map Json.reading) =
      some into)
    (hlabel : (Json.object members).get? "as" = none) :
    Statement.ofBody? .insert (.object members) =
      (key.read? columns cells).map fun p => .insert ⟨into, p, none⟩ := by
  change (Insert.ofReading? (Json.object members).reading).map Statement.insert = _
  rw [Insert.ofReading?, Json.node_reading]
  simp only [Json.node, Node.map, Node.settle, Json.member?_reading, Option.bind_eq_bind,
    Option.bind_some, hinto, hlabel, h.payload]
  cases key.read? columns cells <;> rfl

theorem HoldsRows.ofBody?_upsert {upsert into : Option Ref}
    (hupsert : optional? Ref.form.ofReading?
      (((Json.object members).get? "upsert").map Json.reading) = some upsert)
    (hinto : optional? Ref.form.ofReading? (((Json.object members).get? "into").map Json.reading) =
      some into) :
    Statement.ofBody? .upsert (.object members) =
      (key.read? columns cells).map fun p => .upsert ⟨upsert, into, p⟩ := by
  change (Upsert.ofReading? (Json.object members).reading).map Statement.upsert = _
  rw [Upsert.ofReading?, Json.node_reading]
  simp only [Json.node, Node.map, Node.settle, Json.member?_reading, Option.bind_eq_bind,
    Option.bind_some, hupsert, hinto, h.payload]
  cases key.read? columns cells <;> rfl

omit h in
theorem optional?_target {r : Json} {target : Ref} (hr : Ref.form.ofJson? r = some target) :
    optional? Ref.form.ofReading? (some r.reading) = some (some target) := by
  have hnull : r ≠ .null := by
    rintro rfl
    cases hr
  rw [optional?_reading_some hnull]
  exact congrArg (Option.map some) hr

end Spellings

/-- Every spelling is compiled to the text of its rows. -/
theorem Spells.result {r : Json} {columns : Option Json} {cells : List (List Json)} {v : Json}
    (h : Spells r columns cells v) {target : Ref} (hr : Ref.form.ofJson? r = some target)
    (hne : cells ≠ []) (c : Compiler) :
    (c.compileJson v).result =
      ((readRows? columns cells).map fun p => c.rowsText target p.1 p.2).getD
        (.error (.validation .malformed)) := by
  have htarget := optional?_target hr
  cases h with
  | insert rows into label =>
    have hread := rows.ofBody?_insert (by rw [into]; exact htarget) label
    exact c.result_of_read? hread (fun _ _ => c.statementText_insert) hne
  | @upsert key members rows upsert into =>
    obtain ⟨other, hother⟩ : ∃ other, optional? Ref.form.ofReading?
        (((Json.object members).get? "into").map Json.reading) = some other := by
      cases hget : (Json.object members).get? "into" with
      | none => exact ⟨none, rfl⟩
      | some v =>
        obtain ⟨other, hv⟩ := Option.isSome_iff_exists.mp (into v hget)
        exact ⟨some other, optional?_target hv⟩
    have hread := rows.ofBody?_upsert (by rw [upsert]; exact htarget) hother
    exact c.result_of_read? hread (fun _ _ => c.statementText_upsert rfl rfl) hne
  | upsertInto rows upsert into =>
    have hread := rows.ofBody?_upsert (by rw [upsert]; rfl) (by rw [into]; exact htarget)
    exact c.result_of_read? hread (fun _ _ => c.statementText_upsert rfl rfl) hne

/-- Whichever statement and keys name a table and its rows, and however their cells are spelled, the
compiler gives one text, or one error. -/
theorem Compiler.result_of_spells (c : Compiler) {r : Json} {target : Ref}
    (hr : Ref.form.ofJson? r = some target) {columns : Option Json}
    {cells cells' : List (List Json)} (hne : cells ≠ [])
    (hcells : List.Forall₂ (List.Forall₂ Cell.Respelled) cells cells') {v v' : Json}
    (h : Spells r columns cells v) (h' : Spells r columns cells' v') :
    (c.compileJson v').result = (c.compileJson v).result := by
  have hne' : cells' ≠ [] := by
    rintro rfl
    cases hcells
    exact hne rfl
  rw [h.result hr hne, h'.result hr hne', readRows?_congr columns hcells]

/-- Two rows for the table `A`, as values of an insert. -/
def insertOfValues : Json :=
  .object [("INSERT", .object [
    ("into", .object [("ref", .array [.text "A"])]),
    ("columns", .array [.text "a", .text "b"]),
    ("values", .array [.array [.number (.integer 1), .object [("val", .text "x")]],
      .array [.null, .bool true]])])]

/-- The same rows in an upsert, other cells being objects, beside a reference that is not used. -/
def upsertOfRows : Json :=
  .object [("UPSERT", .object [
    ("rows", .array [.array [.object [("val", .number (.integer 1))], .text "x"],
      .array [.null, .object [("val", .bool true)]]]),
    ("into", .object [("ref", .array [.text "B"])]),
    ("columns", .array [.text "a", .text "b"]),
    ("upsert", .object [("ref", .array [.text "A"])])])]

theorem result_insertOfValues :
    (Compiler.standard.compileJson upsertOfRows).result =
        (Compiler.standard.compileJson insertOfValues).result ∧
      (Compiler.standard.compileJson insertOfValues).result =
        .ok "INSERT INTO \"A\" (\"a\", \"b\")\nVALUES (1, \x27x\x27), (NULL, TRUE)" := by
  have hinsert : Spells (.object [("ref", .array [.text "A"])])
      (some (.array [.text "a", .text "b"]))
      [[.number (.integer 1), .object [("val", .text "x")]], [.null, .bool true]] insertOfValues :=
    @Spells.insert _ _ _ .values _ ⟨rfl, rfl, rfl, rfl⟩ rfl rfl
  have hupsert : Spells (.object [("ref", .array [.text "A"])])
      (some (.array [.text "a", .text "b"]))
      [[.object [("val", .number (.integer 1))], .text "x"],
        [.null, .object [("val", .bool true)]]] upsertOfRows :=
    @Spells.upsert _ _ _ .rows _ ⟨rfl, rfl, rfl, rfl⟩ rfl fun v hv => by cases hv; rfl
  have hcells : List.Forall₂ (List.Forall₂ Cell.Respelled) _ _ := .cons
    (.cons (.wrap (.number (.integer 1))) (.cons (.unwrap (.text "x")) .nil))
    (.cons (.cons (.refl .null) (.cons (.wrap (.bool true)) .nil)) .nil)
  exact ⟨Compiler.standard.result_of_spells rfl (List.cons_ne_nil _ _) hcells hinsert hupsert,
    by with_unfolding_all rfl⟩

end QueryNotation
