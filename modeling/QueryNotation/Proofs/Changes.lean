import QueryNotation.Sql.Basic

/-! Changes to a SQL tree that keep its shape. They reach the numbers of parameters and the aliases
in places that have no use for one, at every depth, and nothing else. -/

namespace QueryNotation.Sql

/-- A change to a SQL tree. -/
structure Change where
  /-- The new number of a parameter. -/
  number : Nat → Nat
  /-- The new alias of an expression, or of a select that is not a source. -/
  label : Option String → Option String

namespace Change

/-- Every parameter gets a number larger by `s`. -/
def shift (s : Nat) : Change := ⟨(· + s), id⟩

/-- Every alias that has no use is given anew from the old one. -/
def relabel (f : Option String → Option String) : Change := ⟨id, f⟩

end Change

mutual

/-- A changed expression. -/
def Expr.changed (c : Change) : Expr → Expr
  | .ref r => .ref ⟨r.path, c.label r.label⟩
  | .literal v => .literal v
  | .binary op left right => .binary op (left.changed c) (right.changed c)
  | .not operand => .not (operand.changed c)
  | .group inner => .group (inner.changed c)
  | .call name args label => .call name (changedExprs c args) (c.label label)
  | .list items => .list (changedExprs c items)
  | .param index => .param (c.number index)
  | .subquery s => .subquery (s.changed c (c.label s.label))
  | .cast operand type => .cast (operand.changed c) type

def changedExprs (c : Change) : List Expr → List Expr
  | [] => []
  | e :: es => e.changed c :: changedExprs c es

def changedOption (c : Change) : Option Expr → Option Expr
  | none => none
  | some e => some (e.changed c)

/-- A changed select; its alias comes from the place where it stands. -/
def Select.changed (c : Change) (label : Option String) : Select → Select
  | ⟨columns, source, filter, groupBy, having, orderBy, limit, distinct, _⟩ =>
    { columns := changedColumns c columns
      source := source.changed c
      filter := changedOption c filter
      groupBy := changedExprs c groupBy
      having := changedOption c having
      orderBy := changedOrders c orderBy
      limit := changedLimit c limit
      distinct, label }

/-- A changed column, which keeps its alias. -/
def Column.changed (c : Change) : Column → Column
  | .wildcard => .wildcard
  | .expr e label => .expr (e.changed c) label

def changedColumns (c : Change) : List Column → List Column
  | [] => []
  | x :: xs => x.changed c :: changedColumns c xs

/-- A changed source, which keeps its alias. -/
def Source.changed (c : Change) : Source → Source
  | .table r => .table r
  | .subquery s => .subquery (s.changed c s.label)
  | .join kind left right on label =>
    .join kind (left.changed c) (right.changed c) (changedOption c on) label

def Order.changed (c : Change) : Order → Order
  | ⟨e, direction, nulls⟩ => ⟨e.changed c, direction, nulls⟩

def changedOrders (c : Change) : List Order → List Order
  | [] => []
  | o :: os => o.changed c :: changedOrders c os

def changedLimit (c : Change) : Option Limit → Option Limit
  | none => none
  | some ⟨rows, offset⟩ => some ⟨rows.changed c, changedOption c offset⟩

end

def changedAssignments (c : Change) (as : List (String × Expr)) : List (String × Expr) :=
  as.map fun a => (a.1, a.2.changed c)

/-- A changed statement. An insert has neither parameters nor aliases without use. -/
def Statement.changed (c : Change) : Statement → Statement
  | .select s => .select (s.changed c (c.label s.label))
  | .insert i => .insert i
  | .update u => .update ⟨u.table, changedAssignments c u.assignments, changedOption c u.filter⟩
  | .delete d => .delete ⟨d.table, changedOption c d.filter⟩
  | .upsert i => .upsert i

section Shape

variable (c : Change)

theorem Expr.changed_castTo (e : Expr) (cast : Option String) :
    (e.castTo cast).changed c = (e.changed c).castTo cast := by
  cases cast <;> rfl

theorem Expr.isBinary_changed (e : Expr) : (e.changed c).isBinary = e.isBinary := by
  cases e <;> rfl

theorem Select.label_changed (label : Option String) (s : Select) :
    (s.changed c label).label = label := by
  cases s
  rfl

theorem Source.isBareJoin_changed (s : Source) : (s.changed c).isBareJoin = s.isBareJoin := by
  cases s with
  | join kind left right on label => cases label <;> rfl
  | _ => rfl

end Shape

end QueryNotation.Sql
