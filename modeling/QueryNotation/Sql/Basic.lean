import QueryNotation.Clause
import QueryNotation.Scalar
import QueryNotation.Sql.Operator

/-! SQL statements as trees, before a dialect gives them their text. -/

namespace QueryNotation.Sql

/-- A dotted name with an alias. -/
structure Ref where
  path : List String
  label : Option String
deriving DecidableEq, Repr

mutual

/-- An expression. -/
inductive Expr where
  | ref (r : Ref)
  | literal (v : Scalar)
  | binary (op : Operator) (left right : Expr)
  | not (operand : Expr)
  /-- An expression in parentheses. -/
  | group (inner : Expr)
  | call (name : String) (args : List Expr) (label : Option String)
  | list (items : List Expr)
  /-- The parameter with this number, counted from one. -/
  | param (index : Nat)
  | subquery (s : Select)
  | cast (operand : Expr) (type : String)

/-- A select statement or subquery. -/
structure Select where
  columns : List Column
  source : Source
  filter : Option Expr
  groupBy : List Expr
  having : Option Expr
  orderBy : List Order
  limit : Option Limit
  distinct : Bool
  label : Option String

/-- A column of a select. -/
inductive Column where
  | wildcard
  | expr (e : Expr) (label : Option String)

/-- What rows are selected from. -/
inductive Source where
  | table (r : Ref)
  | subquery (s : Select)
  | join (kind : JoinKind) (left right : Source) (on : Option Expr) (label : Option String)

/-- An item of an order. -/
structure Order where
  expr : Expr
  direction : Direction
  nulls : Option NullsOrder

/-- A limit on the rows, with the rows to pass over. -/
structure Limit where
  rows : Expr
  offset : Option Expr

end

/-- An insert or upsert statement. -/
structure Insert where
  into : Ref
  columns : Option (List String)
  entries : Option (List (List (String × Scalar)))
  values : Option (List (List Scalar))
  rows : Option (List (List Scalar))
deriving DecidableEq, Repr

/-- The rows that are written: the first of entries, values and rows that has any. -/
def Insert.valueRows? (i : Insert) : Option (List (List Scalar)) :=
  [(i.entries.getD []).map (·.map Prod.snd), i.values.getD [], i.rows.getD []].find? (!·.isEmpty)

/-- An update statement. -/
structure Update where
  table : Ref
  assignments : List (String × Expr)
  filter : Option Expr

/-- A delete statement. -/
structure Delete where
  table : Ref
  filter : Option Expr

/-- A statement. -/
inductive Statement where
  | select (s : Select)
  | insert (i : Insert)
  | update (u : Update)
  | delete (d : Delete)
  | upsert (i : Insert)

/-- The keyword of a statement. -/
def Statement.keyword : Statement → Keyword
  | .select _ => .select
  | .insert _ => .insert
  | .update _ => .update
  | .delete _ => .delete
  | .upsert _ => .upsert

/-- An expression under a cast to the type, if one is asked for. -/
def Expr.castTo (e : Expr) : Option String → Expr
  | some type => .cast e type
  | none => e

/-- Whether an expression is a binary operation. -/
def Expr.isBinary : Expr → Bool
  | .binary .. => true
  | _ => false

/-- Whether a source is a join without an alias. -/
def Source.isBareJoin : Source → Bool
  | .join _ _ _ _ none => true
  | _ => false

end QueryNotation.Sql
