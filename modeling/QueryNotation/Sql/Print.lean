import QueryNotation.Dialect.Basic
import QueryNotation.Sql.Basic

/-! The text of a SQL tree in a dialect. Printing yields pieces, and fails only on a clause that the
dialect does not have. -/

namespace QueryNotation.Sql

/-- A clause that not every dialect has. -/
inductive Feature where
  | nullsOrder
  | limit
deriving DecidableEq, Repr

/-- The feature in words. -/
def Feature.text : Feature → String
  | .nullsOrder => "NULLS ordering"
  | .limit => "LIMIT/OFFSET"

/-- Why a tree has no text: the dialect of this name does not have a feature. -/
inductive PrintError where
  | unsupported (dialect : String) (feature : Feature)
deriving DecidableEq, Repr

/-- The text of an error. -/
def PrintError.message : PrintError → String
  | .unsupported dialect feature =>
    feature.text ++ " is not supported by the " ++ dialect ++ " dialect"

/-- The pieces of a tree, unless the dialect cannot write it. -/
abbrev Printed := Except PrintError (List Piece)

/-- The functions that are written without parentheses when they have no arguments. -/
def niladic : List String := ["CURRENT_TIMESTAMP", "CURRENT_DATE", "CURRENT_TIME"]

/-- A literal. -/
def printScalar (d : Dialect) : Scalar → Piece
  | .null => .plain "NULL"
  | .bool b => .plain (d.boolText b)
  | .number n => .plain n.text
  | .text s => .text s

/-- A table in the place of a source or a target. -/
def Ref.printTable (r : Ref) : List Piece := Piece.aliased (Piece.path r.path) r.label

/-- A call of the database's function `name` with printed arguments. -/
def printCall (name : String) (args : List (List Piece)) : List Piece :=
  if args.isEmpty ∧ name ∈ niladic then [.plain name]
  else .plain name :: Piece.parens (Piece.commas args)

/-- The negation of a printed operand. -/
def printNot (operand : Expr) (pieces : List Piece) : List Piece :=
  .plain "NOT " :: if operand.isBinary then Piece.parens pieces else pieces

/-- The printed right side of a join; a join there is put in parentheses unless it has an alias. -/
def printRight (right : Source) (pieces : List Piece) : List Piece :=
  if right.isBareJoin then Piece.parens pieces else pieces

/-- A join of printed sources; a missing condition always holds. -/
def printJoin (kind : JoinKind) (left right : List Piece) (on : Option (List Piece)) : List Piece :=
  left ++ .plain (" " ++ kind.keyword ++ " JOIN ") :: right ++
    if kind = .cross then [] else .plain " ON " :: on.getD [.plain "1=1"]

/-- A join with an alias is put in parentheses. -/
def aliasedJoin (pieces : List Piece) : Option String → List Piece
  | some label => Piece.aliased (Piece.parens pieces) (some label)
  | none => pieces

/-- The column list of a select; an empty one stands for all columns. -/
def columnList (columns : List (List Piece)) : List Piece :=
  if columns.isEmpty then [.plain "*"] else Piece.commas columns

/-- A clause that is written only if there is something to say. -/
def optionClause (keyword : String) : Option (List Piece) → List (List Piece)
  | some pieces => [Piece.clause keyword pieces]
  | none => []

/-- A clause that is written only if it has items. -/
def listClause (keyword : String) (items : List (List Piece)) : List (List Piece) :=
  if items.isEmpty then [] else [Piece.clause keyword (Piece.commas items)]

/-- Clauses, each on a line of its own. -/
def lines (clauses : List (List Piece)) : List Piece := List.intercalate [.plain "\n"] clauses

/-- The place of nulls after a printed item of an order. -/
def printNulls (d : Dialect) (item : List Piece) : Option NullsOrder → Printed
  | none => pure item
  | some nulls =>
    if d.supportsNullsOrder then pure (item ++ [.plain (" NULLS " ++ nulls.keyword)])
    else throw (.unsupported d.name .nullsOrder)

mutual

/-- Prints an expression; its alias belongs to the place where it stands. -/
def Expr.print (d : Dialect) : Expr → Printed
  | .ref r => pure (Piece.path r.path)
  | .literal v => pure [printScalar d v]
  | .binary op left right => do
    let l ← left.print d
    let r ← right.print d
    return l ++ .plain (" " ++ d.operatorText op ++ " ") :: r
  | .not operand => return printNot operand (← operand.print d)
  | .group inner => return Piece.parens (← inner.print d)
  | .call name args _ => return printCall (d.functionName name) (← printExprs d args)
  | .list items => return Piece.parens (Piece.commas (← printExprs d items))
  | .param index => pure [.param index]
  | .subquery s => return Piece.parens (← s.print d)
  | .cast operand type => do
    let x ← operand.print d
    return .plain "CAST(" :: x ++ [.plain (" AS " ++ d.typeName type ++ ")")]

/-- Prints expressions from left to right. -/
def printExprs (d : Dialect) : List Expr → Except PrintError (List (List Piece))
  | [] => pure []
  | e :: es => do
    let x ← e.print d
    return x :: (← printExprs d es)

/-- Prints an expression that may be missing. -/
def printOption (d : Dialect) : Option Expr → Except PrintError (Option (List Piece))
  | none => pure none
  | some e => return some (← e.print d)

/-- Prints a select, clause by clause. -/
def Select.print (d : Dialect) : Select → Printed
  | ⟨columns, source, filter, groupBy, having, orderBy, limit, distinct, _⟩ => do
    let columns ← printColumns d columns
    let source ← source.print d
    let filter ← printOption d filter
    let groupBy ← printExprs d groupBy
    let having ← printOption d having
    let orderBy ← printOrders d orderBy
    let limit ← printLimit d limit
    return lines ([
      Piece.clause (if distinct then "SELECT DISTINCT" else "SELECT") (columnList columns),
      Piece.clause "FROM" source] ++ optionClause "WHERE" filter ++ listClause "GROUP BY" groupBy ++
      optionClause "HAVING" having ++ listClause "ORDER BY" orderBy ++ limit)

/-- Prints a column. -/
def Column.print (d : Dialect) : Column → Printed
  | .wildcard => pure [.plain "*"]
  | .expr e label => return Piece.aliased (← e.print d) label

/-- Prints columns from left to right. -/
def printColumns (d : Dialect) : List Column → Except PrintError (List (List Piece))
  | [] => pure []
  | c :: cs => do
    let x ← c.print d
    return x :: (← printColumns d cs)

/-- Prints the condition of a join; that of a cross join is left out. -/
def printOn (d : Dialect) (kind : JoinKind) : Option Expr → Except PrintError (Option (List Piece))
  | none => pure none
  | some e => if kind = .cross then pure none else return some (← e.print d)

/-- Prints a source. -/
def Source.print (d : Dialect) : Source → Printed
  | .table r => pure r.printTable
  | .subquery s => do
    let x ← s.print d
    return Piece.aliased (Piece.parens x) s.label
  | .join kind left right on label => do
    let l ← left.print d
    let r ← right.print d
    let on ← printOn d kind on
    return aliasedJoin (printJoin kind l (printRight right r) on) label

/-- Prints an item of an order. -/
def Order.print (d : Dialect) : Order → Printed
  | ⟨e, direction, nulls⟩ => do
    let x ← e.print d
    printNulls d (x ++ [.plain (" " ++ direction.keyword)]) nulls

/-- Prints the items of an order from left to right. -/
def printOrders (d : Dialect) : List Order → Except PrintError (List (List Piece))
  | [] => pure []
  | o :: os => do
    let x ← o.print d
    return x :: (← printOrders d os)

/-- Prints a limit, if there is one and the dialect has limits. -/
def printLimit (d : Dialect) : Option Limit → Except PrintError (List (List Piece))
  | none => pure []
  | some limit =>
    if d.supportsLimit then return [← limit.print d] else throw (.unsupported d.name .limit)

/-- Prints the clause of a limit. -/
def Limit.print (d : Dialect) : Limit → Printed
  | ⟨rows, offset⟩ => do
    let rows ← rows.print d
    return d.limitClause rows (← printOption d offset)

end

/-- The rows of an insert. -/
def printRows (d : Dialect) (rows : List (List Scalar)) : List Piece :=
  Piece.commas (rows.map fun row =>
    Piece.parens (Piece.commas (row.map fun v => [printScalar d v])))

/-- The column list of an insert, written only if it names columns. -/
def insertColumns (columns : Option (List String)) : List Piece :=
  let names := columns.getD []
  if names.isEmpty then []
  else .plain " " :: Piece.parens (Piece.commas (names.map fun c => [.name c]))

/-- Prints an insert. An upsert is printed in the same way. -/
def Insert.print (d : Dialect) (i : Insert) : List Piece :=
  lines (Piece.clause "INSERT INTO" (i.into.printTable ++ insertColumns i.columns) ::
    optionClause "VALUES" (i.valueRows?.map (printRows d)))

/-- Prints assignments in order. -/
def printAssignments (d : Dialect) : List (String × Expr) → Except PrintError (List (List Piece))
  | [] => pure []
  | (column, e) :: rest => do
    let x ← e.print d
    return (.name column :: .plain " = " :: x) :: (← printAssignments d rest)

/-- Prints an update. -/
def Update.print (d : Dialect) (u : Update) : Printed := do
  let assignments ← printAssignments d u.assignments
  let filter ← printOption d u.filter
  return lines ([Piece.clause "UPDATE" u.table.printTable,
    Piece.clause "SET" (Piece.commas assignments)] ++ optionClause "WHERE" filter)

/-- Prints a delete. -/
def Delete.print (d : Dialect) (x : Delete) : Printed := do
  let filter ← printOption d x.filter
  return lines (Piece.clause "DELETE FROM" x.table.printTable :: optionClause "WHERE" filter)

/-- Prints a statement. -/
def Statement.print (d : Dialect) : Statement → Printed
  | .select s => s.print d
  | .insert i => pure (i.print d)
  | .update u => u.print d
  | .delete x => x.print d
  | .upsert i => pure (i.print d)

end QueryNotation.Sql

namespace QueryNotation.Dialect

/-- The text of a statement in a dialect. -/
def generate (d : Dialect) (statement : Sql.Statement) : Except Sql.PrintError String :=
  (statement.print d).map d.text

end QueryNotation.Dialect
