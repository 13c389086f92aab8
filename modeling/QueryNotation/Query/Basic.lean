import QueryNotation.Clause
import QueryNotation.Scalar

/-! Queries: the trees that query notation writes in JSON. A part that has none of the known forms
is kept as `other`; it is rejected only where its meaning is needed. -/

namespace QueryNotation

/-- A reference to a column, a table or a parameter. -/
structure Ref where
  path : List String
  label : Option String
  cast : Option String
  param : Bool
deriving DecidableEq, Repr

/-- A reference stands for a parameter if it is marked so, or if its path is a single `?`. -/
def Ref.isParam (r : Ref) : Bool := r.param || r.path = ["?"]

mutual

/-- An expression. -/
inductive Expr where
  | ref (r : Ref)
  | val (v : Scalar)
  /-- Operands and operator tokens in a row. -/
  | compound (items : List Item)
  | list (items : List Expr)
  | call (c : Call)
  | select (s : Select) (label : Option String)
  /-- A select written without its keyword. -/
  | bareSelect (s : Select)
  | other

/-- An item of a compound expression. -/
inductive Item where
  | token (t : String)
  | expr (e : Expr)

/-- A function call. -/
structure Call where
  name : String
  args : List Expr
  label : Option String
  cast : Option String

/-- A select statement or subquery. -/
structure Select where
  source : Option Source
  columns : Option (List Column)
  filter : Option Expr
  groupBy : Option (List Expr)
  having : Option Expr
  orderBy : Option (List Order)
  limit : Option Limit
  distinct : Bool

/-- What rows are selected from. -/
inductive Source where
  | ref (r : Ref)
  | join (j : Join)
  | select (s : Select) (label : Option String)
  | other

/-- A join; only one of exactly two sources has a meaning. -/
structure Join where
  kind : JoinKind
  args : List Source
  on : Option Expr
  label : Option String

/-- A column of a select. -/
inductive Column where
  | wildcard (star : Bool)
  | ref (r : Ref)
  | call (c : Call)
  | other

/-- An item of an order. -/
structure Order where
  expr : Expr
  direction : Direction
  nulls : Option NullsOrder

/-- A limit on the rows, with the rows to pass over. -/
structure Limit where
  rows : Expr
  offset : Option Expr

end

/-- Whether an item is a token that negates the operand after it. -/
def isNegation (t : String) : Bool := t = "not" || t = "NOT"

/-- A cell of a row: a value in an object of its own, or the value alone. -/
inductive Cell where
  | val (v : Scalar)
  | scalar (v : Scalar)
deriving DecidableEq, Repr

/-- The value of a cell. -/
def Cell.value : Cell → Scalar
  | .val v => v
  | .scalar v => v

/-- An entry: a row given by named fields, in order. -/
abbrev Entry := List (String × Json)

/-- The rows that an insert or upsert writes. -/
structure Payload where
  columns : Option (List String)
  entries : Option (List Entry)
  values : Option (List (List Cell))
  rows : Option (List (List Cell))

/-- Whether a payload has no row at all. -/
def Payload.isEmpty (p : Payload) : Bool :=
  (p.entries.getD []).isEmpty && (p.values.getD []).isEmpty && (p.rows.getD []).isEmpty

/-- An insert statement. -/
structure Insert where
  into : Option Ref
  payload : Payload
  label : Option String

/-- An upsert statement. -/
structure Upsert where
  upsert : Option Ref
  into : Option Ref
  payload : Payload

/-- The target of an upsert; `into` counts only without `upsert`. -/
def Upsert.target (u : Upsert) : Option Ref := u.upsert <|> u.into

/-- An update statement. -/
structure Update where
  target : Option Ref
  assignments : Option (List (String × Expr))
  filter : Option Expr

/-- A delete statement. -/
structure Delete where
  target : Option Ref
  filter : Option Expr

/-- A statement. -/
inductive Statement where
  | select (s : Select)
  | insert (i : Insert)
  | update (u : Update)
  | delete (d : Delete)
  | upsert (u : Upsert)

/-- The keyword of a statement. -/
def Statement.keyword : Statement → Keyword
  | .select _ => .select
  | .insert _ => .insert
  | .update _ => .update
  | .delete _ => .delete
  | .upsert _ => .upsert

/-- A query: the statements that it holds, one being usual, and its other keys in order. -/
structure Query where
  select : Option Select
  insert : Option Insert
  update : Option Update
  delete : Option Delete
  upsert : Option Upsert
  others : List String

namespace Query

/-- The statements of a query, in the order of `Keyword.all`. -/
def statements (q : Query) : List Statement :=
  (q.select.map .select).toList ++ (q.insert.map .insert).toList ++
  (q.update.map .update).toList ++ (q.delete.map .delete).toList ++ (q.upsert.map .upsert).toList

/-- The first statement of a query. -/
def statement? (q : Query) : Option Statement := q.statements.head?

/-- The keys of a query: those of its statements, then the others. -/
def keys (q : Query) : List String := q.statements.map (·.keyword.text) ++ q.others

end Query

end QueryNotation
