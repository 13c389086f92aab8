import QueryNotation.Query.Basic

/-! The expressions, sources and columns of a query at every depth. What a query must not hold
anywhere, a part of unknown form or a nested select, is said of this list. -/

namespace QueryNotation

/-- A part of a query that comes in several forms. -/
inductive Subtree where
  | expr (e : Expr)
  | source (s : Source)
  | column (c : Column)

namespace Subtree

/-- Whether a part has none of the known forms. -/
def isOther : Subtree → Bool
  | .expr .other => true
  | .source .other => true
  | .column .other => true
  | _ => false

/-- Whether a part is a select in the place of an expression or a source. -/
def isSelect : Subtree → Bool
  | .expr (.select _ _) => true
  | .expr (.bareSelect _) => true
  | .source (.select _ _) => true
  | _ => false

end Subtree

mutual

/-- An expression and the parts below it. -/
def Expr.subtrees : Expr → List Subtree
  | .ref r => [.expr (.ref r)]
  | .val v => [.expr (.val v)]
  | .compound items => .expr (.compound items) :: itemSubtrees items
  | .list items => .expr (.list items) :: exprSubtrees items
  | .call c => .expr (.call c) :: c.subtrees
  | .select s label => .expr (.select s label) :: s.subtrees
  | .bareSelect s => .expr (.bareSelect s) :: s.subtrees
  | .other => [.expr .other]

def exprSubtrees : List Expr → List Subtree
  | [] => []
  | e :: es => e.subtrees ++ exprSubtrees es

def optionSubtrees : Option Expr → List Subtree
  | none => []
  | some e => e.subtrees

def Call.subtrees : Call → List Subtree
  | ⟨_, args, _, _⟩ => exprSubtrees args

def Item.subtrees : Item → List Subtree
  | .token _ => []
  | .expr e => e.subtrees

def itemSubtrees : List Item → List Subtree
  | [] => []
  | x :: xs => x.subtrees ++ itemSubtrees xs

def Select.subtrees : Select → List Subtree
  | ⟨source, columns, filter, groupBy, having, orderBy, limit, _⟩ =>
    columnListSubtrees columns ++ sourceSubtrees source ++ optionSubtrees filter ++
      exprListSubtrees groupBy ++ optionSubtrees having ++ orderListSubtrees orderBy ++
      limitSubtrees limit

def columnListSubtrees : Option (List Column) → List Subtree
  | none => []
  | some columns => columnSubtrees columns

def sourceSubtrees : Option Source → List Subtree
  | none => []
  | some source => source.subtrees

def exprListSubtrees : Option (List Expr) → List Subtree
  | none => []
  | some es => exprSubtrees es

def orderListSubtrees : Option (List Order) → List Subtree
  | none => []
  | some orders => orderSubtrees orders

def limitSubtrees : Option Limit → List Subtree
  | none => []
  | some l => l.subtrees

/-- A column and the parts below it. -/
def Column.subtrees : Column → List Subtree
  | .wildcard star => [.column (.wildcard star)]
  | .ref r => [.column (.ref r)]
  | .call c => .column (.call c) :: c.subtrees
  | .other => [.column .other]

def columnSubtrees : List Column → List Subtree
  | [] => []
  | c :: cs => c.subtrees ++ columnSubtrees cs

/-- A source and the parts below it. -/
def Source.subtrees : Source → List Subtree
  | .ref r => [.source (.ref r)]
  | .join j => .source (.join j) :: j.subtrees
  | .select s label => .source (.select s label) :: s.subtrees
  | .other => [.source .other]

def Join.subtrees : Join → List Subtree
  | ⟨_, args, on, _⟩ => sourceListSubtrees args ++ optionSubtrees on

def sourceListSubtrees : List Source → List Subtree
  | [] => []
  | s :: sources => s.subtrees ++ sourceListSubtrees sources

def Order.subtrees : Order → List Subtree
  | ⟨e, _, _⟩ => e.subtrees

def orderSubtrees : List Order → List Subtree
  | [] => []
  | o :: os => o.subtrees ++ orderSubtrees os

def Limit.subtrees : Limit → List Subtree
  | ⟨rows, offset⟩ => rows.subtrees ++ optionSubtrees offset

end

/-- The parts of a statement. The rows of an insert or upsert hold none. -/
def Statement.subtrees : Statement → List Subtree
  | .select s => s.subtrees
  | .insert _ => []
  | .update u => exprSubtrees ((u.assignments.getD []).map Prod.snd) ++ optionSubtrees u.filter
  | .delete d => optionSubtrees d.filter
  | .upsert _ => []

/-- The parts of all statements that a query holds. -/
def Query.subtrees (q : Query) : List Subtree := q.statements.flatMap Statement.subtrees

/-- A part and the parts below it. -/
def Subtree.parts : Subtree → List Subtree
  | .expr e => e.subtrees
  | .source s => s.subtrees
  | .column c => c.subtrees

/-- Parts that hold with every part also the parts below it. -/
def Subtree.Closed (ts : List Subtree) : Prop := ∀ t ∈ ts, t.parts ⊆ ts

namespace Subtree.Closed

variable {t : Subtree} {ts us : List Subtree}

theorem nil : Closed [] := by
  intro t ht
  cases ht

theorem cons (h : Closed ts) (ht : t.parts = t :: ts) : Closed (t :: ts) := by
  intro u hu
  rcases List.mem_cons.mp hu with rfl | hu
  · rw [ht]
    exact List.Subset.refl _
  · exact List.subset_cons_of_subset t (h u hu)

theorem append (hts : Closed ts) (hus : Closed us) : Closed (ts ++ us) := by
  intro u hu
  rcases List.mem_append.mp hu with hu | hu
  · exact List.subset_append_of_subset_left us (hts u hu)
  · exact List.subset_append_of_subset_right ts (hus u hu)

theorem flatMap {l : List α} {f : α → List Subtree} (h : ∀ a ∈ l, Closed (f a)) :
    Closed (l.flatMap f) := by
  induction l with
  | nil => exact nil
  | cons a l ih =>
    obtain ⟨ha, hl⟩ := List.forall_mem_cons.mp h
    exact ha.append (ih hl)

end Subtree.Closed

open Subtree (Closed)

-- One theorem for each function of the mutual recursion.
mutual

theorem Expr.closed_subtrees (e : Expr) : Closed e.subtrees := by
  cases e with
  | compound items => exact (closed_itemSubtrees items).cons rfl
  | list items => exact (closed_exprSubtrees items).cons rfl
  | call c => exact c.closed_subtrees.cons rfl
  | select s label => exact s.closed_subtrees.cons rfl
  | bareSelect s => exact s.closed_subtrees.cons rfl
  | _ => exact Closed.nil.cons rfl

theorem closed_exprSubtrees (es : List Expr) : Closed (exprSubtrees es) := by
  cases es with
  | nil => exact .nil
  | cons e es => exact e.closed_subtrees.append (closed_exprSubtrees es)

theorem closed_optionSubtrees (o : Option Expr) : Closed (optionSubtrees o) := by
  cases o with
  | none => exact .nil
  | some e => exact e.closed_subtrees

theorem Call.closed_subtrees (c : Call) : Closed c.subtrees := by
  obtain ⟨name, args, label, cast⟩ := c
  exact closed_exprSubtrees args

theorem Item.closed_subtrees (i : Item) : Closed i.subtrees := by
  cases i with
  | token t => exact .nil
  | expr e => exact e.closed_subtrees

theorem closed_itemSubtrees (items : List Item) : Closed (itemSubtrees items) := by
  cases items with
  | nil => exact .nil
  | cons i items => exact i.closed_subtrees.append (closed_itemSubtrees items)

theorem Select.closed_subtrees (s : Select) : Closed s.subtrees := by
  obtain ⟨source, columns, filter, groupBy, having, orderBy, limit, distinct⟩ := s
  exact (closed_columnListSubtrees columns).append (closed_sourceSubtrees source)
    |>.append (closed_optionSubtrees filter) |>.append (closed_exprListSubtrees groupBy)
    |>.append (closed_optionSubtrees having) |>.append (closed_orderListSubtrees orderBy)
    |>.append (closed_limitSubtrees limit)

theorem closed_columnListSubtrees (o : Option (List Column)) : Closed (columnListSubtrees o) := by
  cases o with
  | none => exact .nil
  | some columns => exact closed_columnSubtrees columns

theorem closed_sourceSubtrees (o : Option Source) : Closed (sourceSubtrees o) := by
  cases o with
  | none => exact .nil
  | some source => exact source.closed_subtrees

theorem closed_exprListSubtrees (o : Option (List Expr)) : Closed (exprListSubtrees o) := by
  cases o with
  | none => exact .nil
  | some es => exact closed_exprSubtrees es

theorem closed_orderListSubtrees (o : Option (List Order)) : Closed (orderListSubtrees o) := by
  cases o with
  | none => exact .nil
  | some orders => exact closed_orderSubtrees orders

theorem closed_limitSubtrees (o : Option Limit) : Closed (limitSubtrees o) := by
  cases o with
  | none => exact .nil
  | some l => exact l.closed_subtrees

theorem Column.closed_subtrees (c : Column) : Closed c.subtrees := by
  cases c with
  | call c => exact c.closed_subtrees.cons rfl
  | _ => exact Closed.nil.cons rfl

theorem closed_columnSubtrees (cs : List Column) : Closed (columnSubtrees cs) := by
  cases cs with
  | nil => exact .nil
  | cons c cs => exact c.closed_subtrees.append (closed_columnSubtrees cs)

theorem Source.closed_subtrees (s : Source) : Closed s.subtrees := by
  cases s with
  | join j => exact j.closed_subtrees.cons rfl
  | select s label => exact s.closed_subtrees.cons rfl
  | _ => exact Closed.nil.cons rfl

theorem Join.closed_subtrees (j : Join) : Closed j.subtrees := by
  obtain ⟨kind, args, on, label⟩ := j
  exact (closed_sourceListSubtrees args).append (closed_optionSubtrees on)

theorem closed_sourceListSubtrees (ss : List Source) : Closed (sourceListSubtrees ss) := by
  cases ss with
  | nil => exact .nil
  | cons s ss => exact s.closed_subtrees.append (closed_sourceListSubtrees ss)

theorem Order.closed_subtrees (o : Order) : Closed o.subtrees := by
  obtain ⟨e, direction, nulls⟩ := o
  exact e.closed_subtrees

theorem closed_orderSubtrees (os : List Order) : Closed (orderSubtrees os) := by
  cases os with
  | nil => exact .nil
  | cons o os => exact o.closed_subtrees.append (closed_orderSubtrees os)

theorem Limit.closed_subtrees (l : Limit) : Closed l.subtrees := by
  obtain ⟨rows, offset⟩ := l
  exact rows.closed_subtrees.append (closed_optionSubtrees offset)

end

theorem Statement.closed_subtrees (s : Statement) : Closed s.subtrees := by
  cases s with
  | select s => exact s.closed_subtrees
  | insert i => exact .nil
  | update u => exact (closed_exprSubtrees _).append (closed_optionSubtrees _)
  | delete d => exact closed_optionSubtrees _
  | upsert u => exact .nil

/-- With a part, a query holds the parts below it. -/
theorem Query.closed_subtrees (q : Query) : Closed q.subtrees :=
  .flatMap fun s _ => s.closed_subtrees

end QueryNotation
