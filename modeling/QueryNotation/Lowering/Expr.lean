import QueryNotation.Lowering.Error
import QueryNotation.Query.Basic
import QueryNotation.Sql.Basic

/-! Lowering of expressions and selects to SQL trees. Parameters are numbered in the order in which
lowering meets them: in a select the columns come before the source, and then the clauses in the
order in which SQL writes them. A compound is folded from the left, whatever its operators are. -/

namespace QueryNotation

/-- The number of the last parameter, zero before the first one. -/
abbrev ParamCounter := Nat

namespace ParamCounter

/-- The next number, and the counter that stands at it. -/
def next (n : ParamCounter) : Nat × ParamCounter := (n + 1, n + 1)

/-- The counter back at its start. -/
def reset (_ : ParamCounter) : ParamCounter := 0

end ParamCounter

/-- Lowering keeps the number of the last parameter, and may fail. -/
abbrev Lowering := StateT ParamCounter (Except LoweringError)

namespace Lowering

/-- The next parameter number. -/
def nextParam : Lowering Nat := fun n => .ok n.next

end Lowering

/-- A reference to a table or a column, whose path must not be empty. -/
def Ref.toTable (r : Ref) : Except LoweringError Sql.Ref :=
  if r.path.isEmpty then throw .emptyReference else pure ⟨r.path, r.label⟩

/-- A reference as an expression: a parameter, or a column. -/
def Ref.lower (r : Ref) : Lowering Sql.Expr :=
  if r.isParam then return (Sql.Expr.param (← Lowering.nextParam)).castTo r.cast
  else return (Sql.Expr.ref (← liftM r.toTable)).castTo r.cast

/-- The operator at a position of a compound. -/
def Item.operatorAt (position : Nat) : Item → Except LoweringError Sql.Operator
  | .token t => pure (.ofToken t)
  | .expr _ => throw (.expectedOperator position)

/-- Whether an item is a token that negates the operand after it. -/
def Item.isNegation : Item → Bool
  | .token t => QueryNotation.isNegation t
  | .expr _ => false

/-- Whether an operand keeps parentheses of its own: a compound of more than one item does. -/
def Expr.isGroup : Expr → Bool
  | .compound items => 1 < items.length
  | _ => false

mutual

/-- Lowers an expression. -/
def Expr.lower : Expr → Lowering Sql.Expr
  | .ref r => r.lower
  | .val v => pure (.literal v)
  | .compound items => lowerCompound items
  | .list items => return .list (← lowerExprs items)
  | .call c => c.lower
  | .select s label => return .subquery (← s.lower label)
  | .bareSelect s => return .subquery (← s.lower none)
  | .other => throw .invalidExpressionType

/-- Lowers expressions from left to right. -/
def lowerExprs : List Expr → Lowering (List Sql.Expr)
  | [] => pure []
  | e :: es => do
    let x ← e.lower
    return x :: (← lowerExprs es)

/-- Lowers an expression that may be missing. -/
def lowerOption : Option Expr → Lowering (Option Sql.Expr)
  | none => pure none
  | some e => return some (← e.lower)

/-- Lowers a call, its arguments from left to right. -/
def Call.lower : Call → Lowering Sql.Expr
  | ⟨name, args, label, cast⟩ =>
    return (Sql.Expr.call name (← lowerExprs args) label).castTo cast

/-- Lowers an item in the place of an operand. -/
def Item.lower : Item → Lowering Sql.Expr
  | .token t => throw (.unexpectedToken t)
  | .expr e => do
    let x ← e.lower
    return if e.isGroup then .group x else x

/-- Lowers a compound: an operand alone, a negated operand, or operands with operators between them.
-/
def lowerCompound : List Item → Lowering Sql.Expr
  | [] => throw (.invalidExpression 0)
  | [x] => x.lower
  | [negation, x] =>
    if negation.isNegation then return .not (← x.lower) else throw (.invalidExpression 2)
  | x :: rest =>
    if rest.length % 2 = 0 then do
      let first ← x.lower
      lowerChain first 1 rest
    else throw (.invalidExpression (rest.length + 1))

/-- Folds operators and operands onto what stands to their left. -/
def lowerChain (left : Sql.Expr) (position : Nat) : List Item → Lowering Sql.Expr
  | op :: x :: rest => do
    let op ← liftM (op.operatorAt position)
    let right ← x.lower
    lowerChain (.binary op left right) (position + 2) rest
  | _ => pure left

/-- Lowers a select; the alias comes from the place where it stands. -/
def Select.lower (label : Option String) : Select → Lowering Sql.Select
  | ⟨source, columns, filter, groupBy, having, orderBy, limit, distinct⟩ => do
    let columns ← lowerColumnList columns
    let source ← lowerSource source
    let filter ← lowerOption filter
    let groupBy ← lowerExprList groupBy
    let having ← lowerOption having
    let orderBy ← lowerOrderList orderBy
    let limit ← lowerLimit limit
    return { columns, source, filter, groupBy, having, orderBy, limit, distinct, label }

/-- Lowers the columns of a select; without any, all columns are selected. -/
def lowerColumnList : Option (List Column) → Lowering (List Sql.Column)
  | none => pure [.wildcard]
  | some columns => if columns.isEmpty then pure [.wildcard] else lowerColumns columns

/-- Lowers the source of a select, which must be there. -/
def lowerSource : Option Source → Lowering Sql.Source
  | none => throw .missingSource
  | some source => source.lower

/-- Lowers expressions that may be missing. -/
def lowerExprList : Option (List Expr) → Lowering (List Sql.Expr)
  | none => pure []
  | some es => lowerExprs es

/-- Lowers an order that may be missing. -/
def lowerOrderList : Option (List Order) → Lowering (List Sql.Order)
  | none => pure []
  | some orders => lowerOrders orders

/-- Lowers a limit that may be missing. -/
def lowerLimit : Option Limit → Lowering (Option Sql.Limit)
  | none => pure none
  | some limit => return some (← limit.lower)

/-- Lowers a column; one of unknown form stands for all columns. -/
def Column.lower : Column → Lowering Sql.Column
  | .wildcard _ => pure .wildcard
  | .other => pure .wildcard
  | .ref r => return .expr (← r.lower) r.label
  | .call c => return .expr (← c.lower) c.label

/-- Lowers columns from left to right. -/
def lowerColumns : List Column → Lowering (List Sql.Column)
  | [] => pure []
  | c :: cs => do
    let x ← c.lower
    return x :: (← lowerColumns cs)

/-- Lowers a source. -/
def Source.lower : Source → Lowering Sql.Source
  | .ref r => return .table (← liftM r.toTable)
  | .select s label => return .subquery (← s.lower label)
  | .join j => j.lower
  | .other => throw .invalidSource

/-- Lowers a join: left, right, then the condition. -/
def Join.lower : Join → Lowering Sql.Source
  | ⟨kind, [left, right], on, label⟩ => do
    let left ← left.lower
    let right ← right.lower
    let on ← lowerOption on
    return .join kind left right on label
  | ⟨_, args, _, _⟩ => throw (.joinArity args.length)

/-- Lowers an item of an order. -/
def Order.lower : Order → Lowering Sql.Order
  | ⟨e, direction, nulls⟩ => return ⟨← e.lower, direction, nulls⟩

/-- Lowers the items of an order from left to right. -/
def lowerOrders : List Order → Lowering (List Sql.Order)
  | [] => pure []
  | o :: os => do
    let x ← o.lower
    return x :: (← lowerOrders os)

/-- Lowers a limit: the rows, then the offset. -/
def Limit.lower : Limit → Lowering Sql.Limit
  | ⟨rows, offset⟩ => do
    let rows ← rows.lower
    return ⟨rows, ← lowerOption offset⟩

end

end QueryNotation
