import QueryNotation.Lowering.Expr

/-! Lowering of statements. The rows of an insert or upsert hold scalars only, so a nested field of
an entry is either dropped and reported, or rejected. -/

namespace QueryNotation

/-- What becomes of an entry's field that holds an array or an object. -/
inductive NestedPolicy where
  | skip
  | reject
deriving DecidableEq, Repr

/-- What lowering gives: the entry fields that it dropped, and a result. -/
structure Lowered (α : Type) where
  dropped : List String
  outcome : Except LoweringError α

namespace Lowered

/-- A result without dropped fields. -/
def of (outcome : Except LoweringError α) : Lowered α := ⟨[], outcome⟩

/-- A lowered result with `f` applied to it. -/
def map (f : α → β) (l : Lowered α) : Lowered β := ⟨l.dropped, l.outcome.map f⟩

/-- One lowering after another: an error ends it, and what was dropped before stays reported. -/
def bind (l : Lowered α) (f : α → Lowered β) : Lowered β :=
  match l.outcome with
  | .ok a =>
    let next := f a
    ⟨l.dropped ++ next.dropped, next.outcome⟩
  | .error e => ⟨l.dropped, .error e⟩

instance : Monad Lowered where
  pure a := of (.ok a)
  bind := bind
  map := map

end Lowered

/-- Lowers a field of an entry: a scalar is kept, a nested value is dropped or an error. -/
def lowerField (policy : NestedPolicy) (field : String × Json) :
    Lowered (Option (String × Scalar)) :=
  match field.2.scalar?, policy with
  | some s, _ => pure (some (field.1, s))
  | none, .skip => ⟨[field.1], .ok none⟩
  | none, .reject => .of (.error (.nestedEntry field.1))

/-- Lowers the fields of an entry in order, up to the first error. -/
def Entry.lower (policy : NestedPolicy) (e : Entry) : Lowered (List (String × Scalar)) :=
  e.filterMapM (lowerField policy)

namespace Payload

/-- Fails at the first row without a value. -/
def checkRows (rows : Option (List (List α))) : Except LoweringError Unit :=
  match (rows.getD []).findIdx? List.isEmpty with
  | some index => throw (.emptyRow index)
  | none => pure ()

/-- The insert of a payload whose entries are lowered; each row must have a value. -/
def assemble (into : Sql.Ref) (entries : Option (List (List (String × Scalar)))) (p : Payload) :
    Except LoweringError Sql.Insert := do
  let values := p.values.map (·.map (·.map Cell.value))
  let rows := p.rows.map (·.map (·.map Cell.value))
  checkRows entries
  checkRows values
  checkRows rows
  return ⟨into, p.columns, entries, values, rows⟩

/-- Lowers a payload: all its entries in order, and only then the check of the rows. -/
def lower (policy : NestedPolicy) (into : Sql.Ref) (p : Payload) : Lowered Sql.Insert := do
  let entries ← p.entries.mapM (·.mapM (Entry.lower policy))
  .of (p.assemble into entries)

/-- Lowers a payload for a target, which must be there. -/
def lowerInto (policy : NestedPolicy) (statement : Keyword) (target : Option Ref) (p : Payload) :
    Lowered Sql.Insert :=
  match target with
  | none => .of (.error (.missingTarget statement))
  | some r =>
    match r.toTable with
    | .error e => .of (.error e)
    | .ok into => p.lower policy into

end Payload

/-- Lowers assignments in order. -/
def lowerAssignments : List (String × Expr) → Lowering (List (String × Sql.Expr))
  | [] => pure []
  | (column, e) :: rest => do
    let x ← e.lower
    return (column, x) :: (← lowerAssignments rest)

/-- Lowers an update: the assignments, then the table, then the filter. -/
def Update.lower (u : Update) : Lowering Sql.Update :=
  match u.target with
  | none => throw (.missingTarget .update)
  | some target => do
    let assignments ← lowerAssignments (u.assignments.getD [])
    let table ← liftM target.toTable
    return ⟨table, assignments, ← lowerOption u.filter⟩

/-- Lowers a delete. -/
def Delete.lower (d : Delete) : Lowering Sql.Delete :=
  match d.target with
  | none => throw (.missingTarget .delete)
  | some target => do
    let table ← liftM target.toTable
    return ⟨table, ← lowerOption d.filter⟩

/-- Lowers a statement, the last parameter number being `n`: the tree and the last number in it. -/
def Statement.lower (policy : NestedPolicy) (n : Nat) : Statement → Lowered (Sql.Statement × Nat)
  | .select s => .of ((Sql.Statement.select <$> s.lower none).run n)
  | .insert i => (i.payload.lowerInto policy .insert i.into).map fun x => (.insert x, n)
  | .update u => .of ((Sql.Statement.update <$> u.lower).run n)
  | .delete d => .of ((Sql.Statement.delete <$> d.lower).run n)
  | .upsert u => (u.payload.lowerInto policy .upsert u.target).map fun x => (.upsert x, n)

/-- Lowers the statement of a query, the last parameter number being `n`. -/
def Query.lower (policy : NestedPolicy) (n : Nat) (q : Query) : Lowered (Sql.Statement × Nat) :=
  match q.statement? with
  | some statement => statement.lower policy n
  | none => .of (.error .invalidQueryType)

end QueryNotation
