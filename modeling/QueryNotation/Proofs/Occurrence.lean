import QueryNotation.Query.Basic

/-! Occurrences: what a tree holds, in the order in which lowering meets it and printing writes it.
A cross join is printed without its condition, so what occurs there is in the tree and not in the
text. For a query the occurrences are its references in the place of expressions and columns; the
names of tables are none of them. -/

namespace QueryNotation

/-- Something that a tree holds, and whether the text of the tree shows it. -/
structure Occurrence (α : Type) where
  value : α
  written : Bool
deriving DecidableEq, Repr

namespace Occurrence

/-- An occurrence that the text shows. -/
def shown (a : α) : Occurrence α := ⟨a, true⟩

/-- An occurrence in a place that the text leaves out. -/
def hide (o : Occurrence α) : Occurrence α := ⟨o.value, false⟩

/-- The values that the text shows, in order. -/
def writtenValues (l : List (Occurrence α)) : List α := (l.filter written).map value

@[simp] theorem writtenValues_nil : writtenValues ([] : List (Occurrence α)) = [] := rfl

@[simp] theorem writtenValues_shown (a : α) (l : List (Occurrence α)) :
    writtenValues (shown a :: l) = a :: writtenValues l := rfl

@[simp] theorem writtenValues_append (l l' : List (Occurrence α)) :
    writtenValues (l ++ l') = writtenValues l ++ writtenValues l' := by
  simp [writtenValues]

@[simp] theorem writtenValues_map_shown (f : β → α) (l : List β) :
    writtenValues (l.map fun b => shown (f b)) = l.map f := by
  induction l with
  | nil => rfl
  | cons b l ih => simp [ih]

@[simp] theorem writtenValues_map_hide (l : List (Occurrence α)) :
    writtenValues (l.map hide) = [] := by
  simp [writtenValues, List.filter_map, Function.comp_def, hide]

/-- Values may be chosen before or after those that the text leaves out are dropped. -/
theorem filterMap_writtenValues (f : α → Option β) (l : List (Occurrence α)) :
    (writtenValues l).filterMap f =
      writtenValues (l.filterMap fun o => (f o.value).map (⟨·, o.written⟩)) := by
  induction l with
  | nil => rfl
  | cons o l ih =>
    obtain ⟨a, written⟩ := o
    cases hf : f a <;> cases written <;> simp_all [writtenValues]

/-- The text shows the values in their order and leaves some of them out. -/
theorem writtenValues_sublist (l : List (Occurrence α)) :
    (writtenValues l).Sublist (l.map value) :=
  List.filter_sublist.map value

/-- Every value that the text shows is as `P` says. -/
def AllWritten (P : α → Prop) (l : List (Occurrence α)) : Prop := ∀ a ∈ writtenValues l, P a

theorem allWritten_nil {P : α → Prop} : AllWritten P [] := by
  simp [AllWritten]

theorem allWritten_append {P : α → Prop} {l l' : List (Occurrence α)} :
    AllWritten P (l ++ l') ↔ AllWritten P l ∧ AllWritten P l' := by
  simp only [AllWritten, writtenValues_append, List.mem_append, or_imp, forall_and]

theorem allWritten_shown {P : α → Prop} {a : α} {l : List (Occurrence α)} :
    AllWritten P (shown a :: l) ↔ P a ∧ AllWritten P l := by
  simp only [AllWritten, writtenValues_shown, List.forall_mem_cons]

theorem allWritten_flatMap {P : α → Prop} {f : β → List (Occurrence α)} {l : List β}
    (h : ∀ b ∈ l, AllWritten P (f b)) : AllWritten P (l.flatMap f) := by
  induction l with
  | nil => exact allWritten_nil
  | cons b l ih =>
    obtain ⟨hb, hl⟩ := List.forall_mem_cons.mp h
    exact allWritten_append.mpr ⟨hb, ih hl⟩

end Occurrence

/-- What occurs in the condition of a join of this kind; a cross join is printed without one. -/
def JoinKind.condition (kind : JoinKind) (l : List (Occurrence α)) : List (Occurrence α) :=
  if kind = .cross then l.map .hide else l

theorem JoinKind.allWritten_condition {P : α → Prop} {l : List (Occurrence α)} (kind : JoinKind)
    (h : Occurrence.AllWritten P l) : Occurrence.AllWritten P (kind.condition l) := by
  unfold condition
  split
  · simp [Occurrence.AllWritten]
  · exact h

mutual

/-- The references of an expression to columns and parameters, in the order of lowering. -/
def Expr.refs : Expr → List (Occurrence Ref)
  | .ref r => [.shown r]
  | .val _ => []
  | .compound items => itemRefs items
  | .list items => exprRefs items
  | .call c => c.refs
  | .select s _ => s.refs
  | .bareSelect s => s.refs
  | .other => []

def exprRefs : List Expr → List (Occurrence Ref)
  | [] => []
  | e :: es => e.refs ++ exprRefs es

def optionRefs : Option Expr → List (Occurrence Ref)
  | none => []
  | some e => e.refs

/-- The references of a call: those of its arguments. -/
def Call.refs : Call → List (Occurrence Ref)
  | ⟨_, args, _, _⟩ => exprRefs args

def Item.refs : Item → List (Occurrence Ref)
  | .token _ => []
  | .expr e => e.refs

def itemRefs : List Item → List (Occurrence Ref)
  | [] => []
  | x :: xs => x.refs ++ itemRefs xs

/-- The references of a select: columns, source, filter, grouping, having, order, limit. -/
def Select.refs : Select → List (Occurrence Ref)
  | ⟨source, columns, filter, groupBy, having, orderBy, limit, _⟩ =>
    columnListRefs columns ++ sourceRefs source ++ optionRefs filter ++ exprListRefs groupBy ++
      optionRefs having ++ orderListRefs orderBy ++ limitRefs limit

def columnListRefs : Option (List Column) → List (Occurrence Ref)
  | none => []
  | some columns => columnRefs columns

def sourceRefs : Option Source → List (Occurrence Ref)
  | none => []
  | some source => source.refs

def exprListRefs : Option (List Expr) → List (Occurrence Ref)
  | none => []
  | some es => exprRefs es

def orderListRefs : Option (List Order) → List (Occurrence Ref)
  | none => []
  | some orders => orderRefs orders

/-- The references of a limit that may be missing: the rows, then the offset. -/
def limitRefs : Option Limit → List (Occurrence Ref)
  | none => []
  | some ⟨rows, offset⟩ => rows.refs ++ optionRefs offset

def Column.refs : Column → List (Occurrence Ref)
  | .wildcard _ => []
  | .other => []
  | .ref r => [.shown r]
  | .call c => c.refs

def columnRefs : List Column → List (Occurrence Ref)
  | [] => []
  | c :: cs => c.refs ++ columnRefs cs

/-- The references in the selects and conditions of a source; the name of a table is none. -/
def Source.refs : Source → List (Occurrence Ref)
  | .ref _ => []
  | .select s _ => s.refs
  | .join j => j.refs
  | .other => []

/-- The references of a join: those of its sources, then those of its condition. -/
def Join.refs : Join → List (Occurrence Ref)
  | ⟨kind, args, on, _⟩ => sourceListRefs args ++ kind.condition (optionRefs on)

def sourceListRefs : List Source → List (Occurrence Ref)
  | [] => []
  | s :: sources => s.refs ++ sourceListRefs sources

def Order.refs : Order → List (Occurrence Ref)
  | ⟨e, _, _⟩ => e.refs

def orderRefs : List Order → List (Occurrence Ref)
  | [] => []
  | o :: os => o.refs ++ orderRefs os

end

/-- The references of a statement to columns and parameters. The rows of an insert or upsert are
scalars, so it has none. -/
def Statement.refs : Statement → List (Occurrence Ref)
  | .select s => s.refs
  | .insert _ => []
  | .update u => exprRefs ((u.assignments.getD []).map Prod.snd) ++ optionRefs u.filter
  | .delete d => optionRefs d.filter
  | .upsert _ => []

namespace Query

/-- The references of the statement that a query is lowered to. -/
def refs (q : Query) : List (Occurrence Ref) := (q.statement?.map Statement.refs).getD []

/-- The references of all statements that a query holds. -/
def allRefs (q : Query) : List (Occurrence Ref) := q.statements.flatMap Statement.refs

end Query

end QueryNotation
