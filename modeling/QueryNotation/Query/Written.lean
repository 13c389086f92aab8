import QueryNotation.Query.Basic

/-! Queries written back as JSON: an object for each part, with the keys by which it is read.
Members that are missing, and those at their default, are left out. A part of unknown form is
written as an empty object, which has no known form either. -/

namespace QueryNotation

/-- A member that is left out if it is missing. -/
def writeMember (key : String) (f : α → Json) : Option α → List (String × Json)
  | some v => [(key, f v)]
  | none => []

/-- A member that is left out unless it is true. -/
def writeMark (key : String) (b : Bool) : List (String × Json) := if b then [(key, .bool b)] else []

/-- Texts as an array. -/
def textArray (texts : List String) : Json := .array (texts.map .text)

/-- The members of a reference. -/
def Ref.members (r : Ref) : List (String × Json) :=
  ("ref", textArray r.path) :: writeMember "as" .text r.label ++ writeMember "cast" .text r.cast ++
    writeMark "param" r.param

/-- A reference as JSON. -/
def Ref.toJson (r : Ref) : Json := .object r.members

mutual

/-- The members of an expression. A select without its keyword has the keys `from` and `columns` in
any case. -/
def Expr.members : Expr → List (String × Json)
  | .ref r => r.members
  | .val v => [("val", v.toJson)]
  | .compound items => [("xpr", .array (writeItems items))]
  | .list items => [("list", .array (writeExprs items))]
  | .call c => c.members
  | .select s label => ("SELECT", .object s.members) :: writeMember "as" .text label
  | .bareSelect s => s.bareMembers
  | .other => []

/-- Expressions as JSON. -/
def writeExprs : List Expr → List Json
  | [] => []
  | e :: es => .object e.members :: writeExprs es

/-- An item of a compound as JSON. -/
def Item.toJson : Item → Json
  | .token t => .text t
  | .expr e => .object e.members

/-- The items of a compound as JSON. -/
def writeItems : List Item → List Json
  | [] => []
  | i :: is => i.toJson :: writeItems is

/-- The members of a call. -/
def Call.members : Call → List (String × Json)
  | ⟨name, args, label, cast⟩ =>
    [("func", .text name), ("args", .array (writeExprs args))] ++ writeMember "as" .text label ++
      writeMember "cast" .text cast

/-- The members of a select. -/
def Select.members : Select → List (String × Json)
  | ⟨source, columns, filter, groupBy, having, orderBy, limit, distinct⟩ =>
    writeSource source ++ writeColumnList columns ++ writeExpr "where" filter ++
      writeExprList groupBy ++ writeExpr "having" having ++ writeOrderList orderBy ++
      writeLimit limit ++ writeMark "distinct" distinct

/-- The members of a select without its keyword. -/
def Select.bareMembers : Select → List (String × Json)
  | ⟨source, columns, filter, groupBy, having, orderBy, limit, distinct⟩ =>
    (if source.isNone then [("from", Json.null)] else writeSource source) ++
      (if columns.isNone then [("columns", Json.null)] else writeColumnList columns) ++
      writeExpr "where" filter ++ writeExprList groupBy ++ writeExpr "having" having ++
      writeOrderList orderBy ++ writeLimit limit ++ writeMark "distinct" distinct

/-- The member of an expression that may be missing. -/
def writeExpr (key : String) : Option Expr → List (String × Json)
  | none => []
  | some e => [(key, .object e.members)]

/-- The member of the source of a select. -/
def writeSource : Option Source → List (String × Json)
  | none => []
  | some s => [("from", s.toJson)]

/-- The member of the columns of a select. -/
def writeColumnList : Option (List Column) → List (String × Json)
  | none => []
  | some columns => [("columns", .array (writeColumns columns))]

/-- The member of a grouping. -/
def writeExprList : Option (List Expr) → List (String × Json)
  | none => []
  | some es => [("groupBy", .array (writeExprs es))]

/-- The member of an order. -/
def writeOrderList : Option (List Order) → List (String × Json)
  | none => []
  | some orders => [("orderBy", .array (writeOrders orders))]

/-- The member of a limit. -/
def writeLimit : Option Limit → List (String × Json)
  | none => []
  | some l => [("limit", l.toJson)]

/-- A source as JSON. -/
def Source.toJson : Source → Json
  | .ref r => r.toJson
  | .join j => j.toJson
  | .select s label => .object (("SELECT", .object s.members) :: writeMember "as" .text label)
  | .other => .object []

/-- Sources as JSON. -/
def writeSources : List Source → List Json
  | [] => []
  | s :: ss => s.toJson :: writeSources ss

/-- A join as JSON. -/
def Join.toJson : Join → Json
  | ⟨kind, args, on, label⟩ =>
    .object ([("join", .text kind.name), ("args", .array (writeSources args))] ++
      writeExpr "on" on ++ writeMember "as" .text label)

/-- A column as JSON. -/
def Column.toJson : Column → Json
  | .wildcard star => .object [("*", .bool star)]
  | .ref r => r.toJson
  | .call c => .object c.members
  | .other => .object []

/-- Columns as JSON. -/
def writeColumns : List Column → List Json
  | [] => []
  | c :: cs => c.toJson :: writeColumns cs

/-- An item of an order as JSON: the members of its expression, and its own. -/
def Order.toJson : Order → Json
  | ⟨e, direction, nulls⟩ =>
    .object (e.members ++ ("sort", .text direction.name) ::
      writeMember "nulls" (fun n => .text n.name) nulls)

/-- The items of an order as JSON. -/
def writeOrders : List Order → List Json
  | [] => []
  | o :: os => o.toJson :: writeOrders os

/-- A limit as JSON. -/
def Limit.toJson : Limit → Json
  | ⟨rows, offset⟩ => .object (("rows", .object rows.members) :: writeExpr "offset" offset)

end

/-- An expression as JSON. -/
def Expr.toJson (e : Expr) : Json := .object e.members

/-- A cell as JSON. -/
def Cell.toJson : Cell → Json
  | .val v => .object [("val", v.toJson)]
  | .scalar v => v.toJson

/-- Rows of cells as JSON. -/
def cellRows (rows : List (List Cell)) : Json :=
  .array (rows.map fun row => .array (row.map Cell.toJson))

/-- The members of a payload. -/
def Payload.members (p : Payload) : List (String × Json) :=
  writeMember "columns" textArray p.columns ++
    writeMember "entries" (fun entries => .array (entries.map .object)) p.entries ++
    writeMember "values" cellRows p.values ++ writeMember "rows" cellRows p.rows

/-- An insert as JSON. -/
def Insert.toJson (i : Insert) : Json :=
  .object (writeMember "into" Ref.toJson i.into ++ i.payload.members ++
    writeMember "as" .text i.label)

/-- An upsert as JSON. -/
def Upsert.toJson (u : Upsert) : Json :=
  .object (writeMember "upsert" Ref.toJson u.upsert ++ writeMember "into" Ref.toJson u.into ++
    u.payload.members)

/-- Assignments as JSON. -/
def assignmentObject (assignments : List (String × Expr)) : Json :=
  .object (assignments.map fun (column, e) => (column, e.toJson))

/-- An update as JSON. -/
def Update.toJson (u : Update) : Json :=
  .object (writeMember "update" Ref.toJson u.target ++
    writeMember "set" assignmentObject u.assignments ++ writeMember "where" Expr.toJson u.filter)

/-- A delete as JSON. -/
def Delete.toJson (d : Delete) : Json :=
  .object (writeMember "delete" Ref.toJson d.target ++ writeMember "where" Expr.toJson d.filter)

/-- The body of a statement as JSON. -/
def Statement.toJson : Statement → Json
  | .select s => .object s.members
  | .insert i => i.toJson
  | .update u => u.toJson
  | .delete d => d.toJson
  | .upsert u => u.toJson

/-- The statements of a query as JSON, each under its keyword. -/
def Query.toJson (q : Query) : Json :=
  .object (q.statements.map fun s => (s.keyword.text, s.toJson))

end QueryNotation
