import QueryNotation.Json.Shape
import QueryNotation.Query.Reading

/-! The forms of query notation: how each part of a query is read from a JSON value or from JSON
text. Text is read without settling repeated keys first, and members that a record does not know are
skipped in it. -/

namespace QueryNotation

/-- How a part of a query is read. -/
structure Form (α : Type) where
  /-- The members of a text that are read. -/
  shape : Json.Shape
  /-- The part that a reading gives. -/
  ofReading? : Reading → Option α

namespace Form

/-- The part that a JSON value writes; of a repeated key the last value counts. -/
def ofJson? (f : Form α) (v : Json) : Option α := f.ofReading? v.reading

/-- The part that a JSON text writes. -/
def ofText? (f : Form α) (s : String) : Option α :=
  (Json.ofTextAs? f.shape s).bind fun v => f.ofReading? v.writtenReading

end Form

/-- Expressions. -/
def Expr.form : Form Expr := ⟨.whole, fun r => some r.expr⟩

/-- Items of compounds. -/
def Item.form : Form Item := ⟨.whole, fun r => some r.item⟩

/-- Sources. -/
def Source.form : Form Source := ⟨.whole, fun r => some r.source⟩

/-- Columns. -/
def Column.form : Form Column := ⟨.whole, fun r => some r.column⟩

/-- Items of orders. -/
def Order.form : Form Order := ⟨.whole, Reading.order⟩

/-- Scalars. -/
def Scalar.form : Form Scalar := ⟨.whole, Reading.scalar?⟩

/-- The cell that a reading gives. -/
def Cell.ofReading? (r : Reading) : Option Cell :=
  (Scalar.ofNode? r.node).map Cell.val <|> r.scalar?.map Cell.scalar

/-- Cells. -/
def Cell.form : Form Cell := ⟨.whole, Cell.ofReading?⟩

/-- Limits. -/
def Limit.form : Form Limit := ⟨.only [("rows", .whole), ("offset", .whole)], Reading.limit⟩

/-- References. -/
def Ref.form : Form Ref where
  shape := .only [("ref", .whole), ("as", .whole), ("cast", .whole), ("param", .whole)]
  ofReading? r := Ref.ofNode? r.node

/-- Selects without their keyword. -/
def Select.form : Form Select where
  shape := .only (Select.keys.map fun k => (k, if k = "limit" then Limit.form.shape else .whole))
  ofReading? := Reading.select

/-- An entry. -/
def Entry.ofReading? (r : Reading) : Option Entry := r.fields? fun v => some v.value

/-- Rows of cells. -/
def Cell.rowsOfReading? : Reading → Option (List (List Cell)) :=
  Reading.list? (Reading.list? Cell.ofReading?)

/-- The payload among the members of an insert or upsert. -/
def Payload.ofMembers? (members : List (String × Reading)) : Option Payload := do
  some {
    columns := ← optional? (Reading.list? Reading.text?) (← member? "columns" members)
    entries := ← optional? (Reading.list? Entry.ofReading?) (← member? "entries" members)
    values := ← optional? Cell.rowsOfReading? (← member? "values" members)
    rows := ← optional? Cell.rowsOfReading? (← member? "rows" members) }

/-- The insert that a reading gives. -/
def Insert.ofReading? (r : Reading) : Option Insert :=
  match r.node with
  | .object members => do
    some {
      into := ← optional? Ref.form.ofReading? (← member? "into" members)
      payload := ← Payload.ofMembers? members
      label := ← optional? Reading.text? (← member? "as" members) }
  | _ => none

/-- Inserts without their keyword. -/
def Insert.form : Form Insert := ⟨.also [("into", Ref.form.shape)], Insert.ofReading?⟩

/-- The upsert that a reading gives. -/
def Upsert.ofReading? (r : Reading) : Option Upsert :=
  match r.node with
  | .object members => do
    some {
      upsert := ← optional? Ref.form.ofReading? (← member? "upsert" members)
      into := ← optional? Ref.form.ofReading? (← member? "into" members)
      payload := ← Payload.ofMembers? members }
  | _ => none

/-- Upserts without their keyword. -/
def Upsert.form : Form Upsert :=
  ⟨.also [("upsert", Ref.form.shape), ("into", Ref.form.shape)], Upsert.ofReading?⟩

/-- The update that a reading gives. -/
def Update.ofReading? (r : Reading) : Option Update := do
  match ← r.node.record? ["update", "set", "where"] 3 with
  | [update, set, filter] =>
    some {
      target := ← optional? Ref.form.ofReading? update
      assignments := ← optional? (Reading.fields? fun v => some v.expr) set
      filter := ← optional? (fun r => some r.expr) filter }
  | _ => none

/-- Updates without their keyword. -/
def Update.form : Form Update :=
  ⟨.only [("update", Ref.form.shape), ("set", .whole), ("where", .whole)], Update.ofReading?⟩

/-- The delete that a reading gives. -/
def Delete.ofReading? (r : Reading) : Option Delete := do
  match ← r.node.record? ["delete", "where"] 2 with
  | [delete, filter] =>
    some {
      target := ← optional? Ref.form.ofReading? delete
      filter := ← optional? (fun r => some r.expr) filter }
  | _ => none

/-- Deletes without their keyword. -/
def Delete.form : Form Delete :=
  ⟨.only [("delete", Ref.form.shape), ("where", .whole)], Delete.ofReading?⟩

/-- The keys that are no statement keywords, each once and in order. -/
def Query.otherKeys (keys : List String) : List String :=
  ((keys.filter fun k => (Keyword.ofText? k).isNone).eraseDups).mergeSort

/-- The query that a reading gives. -/
def Query.ofReading? (r : Reading) : Option Query :=
  match r.node with
  | .object members => do
    some {
      select := ← optional? Select.form.ofReading? (← member? Keyword.select.text members)
      insert := ← optional? Insert.form.ofReading? (← member? Keyword.insert.text members)
      update := ← optional? Update.form.ofReading? (← member? Keyword.update.text members)
      delete := ← optional? Delete.form.ofReading? (← member? Keyword.delete.text members)
      upsert := ← optional? Upsert.form.ofReading? (← member? Keyword.upsert.text members)
      others := Query.otherKeys (members.map Prod.fst) }
  | _ => none

/-- Queries. -/
def Query.form : Form Query where
  shape := .also [
    (Keyword.select.text, Select.form.shape), (Keyword.insert.text, Insert.form.shape),
    (Keyword.update.text, Update.form.shape), (Keyword.delete.text, Delete.form.shape),
    (Keyword.upsert.text, Upsert.form.shape)]
  ofReading? := Query.ofReading?

end QueryNotation
