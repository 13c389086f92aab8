import QueryNotation.Proofs.Grammar

/-! The normal form of SQL trees. Operations are printed without parentheses of their own, so a text
means what its tree says only if an operation never stands where an operand is expected unless a
group is around it. Every lowered tree has that form at every depth, its names are not empty, its
selects have columns and its rows have values. -/

namespace QueryNotation

namespace Sql

def Expr.isNot : Expr → Bool
  | .not _ => true
  | _ => false

/-- An operation is a binary one or a negation. -/
def Expr.isOperation : Expr → Bool
  | .binary .. => true
  | .not _ => true
  | _ => false

def Expr.isCastable : Expr → Bool
  | .ref _ => true
  | .param _ => true
  | .call .. => true
  | _ => false

mutual

/-- Operations are grouped wherever they are operands, but for a binary one on the left. -/
inductive Expr.Normal : Expr → Prop
  | ref {r : Ref} (path : r.path ≠ []) : Expr.Normal (.ref r)
  | literal (v : Scalar) : Expr.Normal (.literal v)
  | binary {l r : Expr} (op : Operator) (left : l.Normal) (right : r.Normal) (hl : ¬ l.isNot)
      (hr : ¬ r.isOperation) : Expr.Normal (.binary op l r)
  | not {e : Expr} (operand : e.Normal) (h : ¬ e.isOperation) : Expr.Normal (.not e)
  | group {e : Expr} (inner : e.Normal) (h : e.isOperation) : Expr.Normal (.group e)
  | call {es : List Expr} (name : String) (args : ∀ e ∈ es, e.Normal) (label : Option String) :
      Expr.Normal (.call name es label)
  | list {es : List Expr} (items : ∀ e ∈ es, e.Normal) : Expr.Normal (.list es)
  | param (index : Nat) : Expr.Normal (.param index)
  | subquery {s : Select} (select : s.Normal) : Expr.Normal (.subquery s)
  | cast {e : Expr} (operand : e.Normal) (h : e.isCastable) (type : String) :
      Expr.Normal (.cast e type)

inductive Select.Normal : Select → Prop
  | mk {s : Select} (nonempty : s.columns ≠ []) (columns : ∀ c ∈ s.columns, c.Normal)
      (source : s.source.Normal) (filter : ∀ e ∈ s.filter, e.Normal)
      (groupBy : ∀ e ∈ s.groupBy, e.Normal) (having : ∀ e ∈ s.having, e.Normal)
      (orderBy : ∀ o ∈ s.orderBy, o.expr.Normal) (rows : ∀ l ∈ s.limit, l.rows.Normal)
      (offset : ∀ l ∈ s.limit, ∀ e ∈ l.offset, e.Normal) : s.Normal

inductive Column.Normal : Column → Prop
  | wildcard : Column.Normal .wildcard
  | expr {e : Expr} (h : e.Normal) (label : Option String) : Column.Normal (.expr e label)

inductive Source.Normal : Source → Prop
  | table {r : Ref} (path : r.path ≠ []) : Source.Normal (.table r)
  | subquery {s : Select} (select : s.Normal) : Source.Normal (.subquery s)
  | join {l r : Source} {o : Option Expr} (kind : JoinKind) (left : l.Normal) (right : r.Normal)
      (on : ∀ e ∈ o, e.Normal) (label : Option String) : Source.Normal (.join kind l r o label)

end

/-- Every row has a value, also in the collections that are not written. -/
structure Insert.Normal (i : Insert) : Prop where
  into : i.into.path ≠ []
  entries : ∀ rows ∈ i.entries, ∀ row ∈ rows, row ≠ []
  values : ∀ rows ∈ i.values, ∀ row ∈ rows, row ≠ []
  rows : ∀ rows ∈ i.rows, ∀ row ∈ rows, row ≠ []

def Statement.Normal : Statement → Prop
  | .select s => s.Normal
  | .insert i => i.Normal
  | .update u =>
    u.table.path ≠ [] ∧ (∀ a ∈ u.assignments, a.2.Normal) ∧ ∀ e ∈ u.filter, e.Normal
  | .delete d => d.table.path ≠ [] ∧ ∀ e ∈ d.filter, e.Normal
  | .upsert i => i.Normal

theorem Expr.Normal.castTo {e : Expr} (h : e.Normal) (hcast : e.isCastable)
    (cast : Option String) : (e.castTo cast).Normal := by
  cases cast with
  | none => exact h
  | some type => exact .cast h hcast type

theorem Expr.isOperation_castTo {e : Expr} (h : e.isOperation = false) (cast : Option String) :
    (e.castTo cast).isOperation = false := by
  cases cast with
  | none => exact h
  | some type => rfl

end Sql

theorem Ref.toTable_path {r : Ref} {t : Sql.Ref} (h : r.toTable = .ok t) : t.path ≠ [] := by
  unfold Ref.toTable at h
  split at h
  · exact absurd h Outcome.throw_ne_ok
  · rename_i hpath
    rw [List.isEmpty_iff] at hpath
    cases h
    exact hpath

open Lowering (Yields)

theorem Ref.lower_yields (r : Ref) : r.lower.Yields fun x => x.Normal ∧ x.isOperation = false := by
  unfold Ref.lower
  split
  · exact (Yields.any _).bind fun i _ => .pure
      ⟨.castTo (.param i) rfl r.cast, Sql.Expr.isOperation_castTo rfl r.cast⟩
  · exact (Yields.lift fun t ht => r.toTable_path ht).bind fun t ht => .pure
      ⟨.castTo (.ref ht) rfl r.cast, Sql.Expr.isOperation_castTo rfl r.cast⟩

-- One theorem for each function of the mutual recursion. What an expression lowers to is told with
-- whether it is an operation, since that decides what may stand around it.
mutual

/-- An expression lowers to an operation exactly if it is a compound of more than one item. -/
theorem Expr.lower_yields (e : Expr) :
    e.lower.Yields fun x => x.Normal ∧ x.isOperation = e.isGroup := by
  cases e with
  | ref r => exact r.lower_yields
  | val v => exact .pure ⟨.literal v, rfl⟩
  | compound items => exact lowerCompound_yields items
  | list items => exact (lowerExprs_yields items).bind fun xs hxs => .pure ⟨.list hxs, rfl⟩
  | call c => exact c.lower_yields
  | select s label => exact (s.lower_yields label).bind fun x hx => .pure ⟨.subquery hx, rfl⟩
  | bareSelect s => exact (s.lower_yields none).bind fun x hx => .pure ⟨.subquery hx, rfl⟩
  | other => exact .throw _

theorem lowerExprs_yields (es : List Expr) :
    (lowerExprs es).Yields fun xs => ∀ x ∈ xs, x.Normal := by
  cases es with
  | nil => exact .pure (by simp)
  | cons e es =>
    refine e.lower_yields.bind fun x hx => (lowerExprs_yields es).bind fun xs hxs => .pure ?_
    exact List.forall_mem_cons.mpr ⟨hx.1, hxs⟩

theorem lowerOption_yields (o : Option Expr) :
    (lowerOption o).Yields fun y => ∀ x ∈ y, x.Normal := by
  cases o with
  | none => exact .pure (by simp)
  | some e => exact e.lower_yields.bind fun x hx => .pure (by simpa using hx.1)

theorem Call.lower_yields (c : Call) :
    c.lower.Yields fun x => x.Normal ∧ x.isOperation = false := by
  obtain ⟨name, args, label, cast⟩ := c
  exact (lowerExprs_yields args).bind fun xs hxs => .pure
    ⟨.castTo (.call name hxs label) rfl cast, Sql.Expr.isOperation_castTo rfl cast⟩

/-- An operand never is a bare operation, however many compounds of one item are around it. -/
theorem Item.lower_yields (i : Item) :
    i.lower.Yields fun x => x.Normal ∧ x.isOperation = false := by
  cases i with
  | token t => exact .throw _
  | expr e =>
    refine e.lower_yields.bind fun x hx => .pure ?_
    split
    · rename_i hgroup
      exact ⟨.group hx.1 (hx.2.trans hgroup), rfl⟩
    · rename_i hgroup
      exact ⟨hx.1, by simpa [hgroup] using hx.2⟩

theorem lowerCompound_yields (items : List Item) :
    (lowerCompound items).Yields fun x => x.Normal ∧ x.isOperation = decide (1 < items.length) := by
  match items with
  | [] => exact .throw _
  | [i] => exact i.lower_yields
  | [negation, i] =>
    rw [lowerCompound]
    split
    · exact i.lower_yields.bind fun x hx => .pure ⟨.not hx.1 (by simp [hx.2]), rfl⟩
    · exact .throw _
  | i :: op :: j :: rest =>
    simp only [lowerCompound]
    split
    · refine i.lower_yields.bind fun l hl => ?_
      have hleft : ¬ l.isNot := by
        cases l <;> simp_all [Sql.Expr.isNot, Sql.Expr.isOperation]
      refine (Yields.any _).bind fun op _ =>
        j.lower_yields.bind fun r hr => ?_
      simpa using lowerChain_yields (.binary op hl.1 hr.1 hleft (by simp [hr.2])) _ rest
    · exact .throw _

/-- The invariant of the fold: what stands to the left is an operation already. -/
theorem lowerChain_yields {op : Sql.Operator} {l r : Sql.Expr} (h : (Sql.Expr.binary op l r).Normal)
    (position : Nat) (items : List Item) :
    (lowerChain (.binary op l r) position items).Yields fun x => x.Normal ∧ x.isOperation := by
  match items with
  | [] => exact .pure ⟨h, rfl⟩
  | [_] => exact .pure ⟨h, rfl⟩
  | op' :: i :: rest =>
    refine (Yields.any _).bind fun op' _ =>
      i.lower_yields.bind fun x hx => ?_
    exact lowerChain_yields (.binary op' h hx.1 nofun (by simp [hx.2])) _ rest

theorem Select.lower_yields (s : Select) (label : Option String) :
    (s.lower label).Yields Sql.Select.Normal := by
  obtain ⟨source, columns, filter, groupBy, having, orderBy, limit, distinct⟩ := s
  refine (lowerColumnList_yields columns).bind fun _ hcolumns =>
    (lowerSource_yields source).bind fun _ hsource =>
    (lowerOption_yields filter).bind fun _ hfilter =>
    (lowerExprList_yields groupBy).bind fun _ hgroup =>
    (lowerOption_yields having).bind fun _ hhaving =>
    (lowerOrderList_yields orderBy).bind fun _ horder =>
    (lowerLimit_yields limit).bind fun _ hlimit => .pure ?_
  exact .mk hcolumns.1 hcolumns.2 hsource hfilter hgroup hhaving horder
    (fun l hl => (hlimit l hl).1) fun l hl => (hlimit l hl).2

theorem lowerColumnList_yields (o : Option (List Column)) :
    (lowerColumnList o).Yields fun xs => xs ≠ [] ∧ ∀ x ∈ xs, x.Normal := by
  match o with
  | none => exact .pure (by simp [Sql.Column.Normal.wildcard])
  | some [] => exact .pure (by simp [Sql.Column.Normal.wildcard])
  | some (c :: cs) =>
    refine c.lower_yields.bind fun x hx => (lowerColumns_yields cs).bind fun xs hxs => .pure ?_
    exact ⟨by simp, List.forall_mem_cons.mpr ⟨hx, hxs⟩⟩

theorem lowerSource_yields (o : Option Source) : (lowerSource o).Yields Sql.Source.Normal := by
  cases o with
  | none => exact .throw _
  | some source => exact source.lower_yields

theorem lowerExprList_yields (o : Option (List Expr)) :
    (lowerExprList o).Yields fun xs => ∀ x ∈ xs, x.Normal := by
  cases o with
  | none => exact .pure (by simp)
  | some es => exact lowerExprs_yields es

theorem lowerOrderList_yields (o : Option (List Order)) :
    (lowerOrderList o).Yields fun xs => ∀ x ∈ xs, x.expr.Normal := by
  cases o with
  | none => exact .pure (by simp)
  | some orders => exact lowerOrders_yields orders

theorem lowerLimit_yields (o : Option Limit) :
    (lowerLimit o).Yields fun y => ∀ l ∈ y, l.rows.Normal ∧ ∀ e ∈ l.offset, e.Normal := by
  match o with
  | none => exact .pure (by simp)
  | some ⟨rows, offset⟩ =>
    have hlimit : (Limit.lower ⟨rows, offset⟩).Yields fun l =>
        l.rows.Normal ∧ ∀ e ∈ l.offset, e.Normal :=
      rows.lower_yields.bind fun x hx =>
        (lowerOption_yields offset).bind fun y hy => .pure ⟨hx.1, hy⟩
    exact hlimit.bind fun l hl => .pure (by simpa using hl)

theorem Column.lower_yields (c : Column) : c.lower.Yields Sql.Column.Normal := by
  cases c with
  | wildcard star => exact .pure .wildcard
  | other => exact .pure .wildcard
  | ref r => exact r.lower_yields.bind fun x hx => .pure (.expr hx.1 r.label)
  | call c => exact c.lower_yields.bind fun x hx => .pure (.expr hx.1 c.label)

theorem lowerColumns_yields (cs : List Column) :
    (lowerColumns cs).Yields fun xs => ∀ x ∈ xs, x.Normal := by
  cases cs with
  | nil => exact .pure (by simp)
  | cons c cs =>
    refine c.lower_yields.bind fun x hx => (lowerColumns_yields cs).bind fun xs hxs => .pure ?_
    exact List.forall_mem_cons.mpr ⟨hx, hxs⟩

theorem Source.lower_yields (s : Source) : s.lower.Yields Sql.Source.Normal := by
  cases s with
  | ref r => exact (Yields.lift fun t ht => r.toTable_path ht).bind fun t ht => .pure (.table ht)
  | select s label => exact (s.lower_yields label).bind fun x hx => .pure (.subquery hx)
  | join j => exact j.lower_yields
  | other => exact .throw _

theorem Join.lower_yields (j : Join) : j.lower.Yields Sql.Source.Normal := by
  match j with
  | ⟨kind, [left, right], on, label⟩ =>
    exact left.lower_yields.bind fun l hl => right.lower_yields.bind fun r hr =>
      (lowerOption_yields on).bind fun o ho => .pure (.join kind hl hr ho label)
  | ⟨_, [], _, _⟩ => exact .throw _
  | ⟨_, [_], _, _⟩ => exact .throw _
  | ⟨_, _ :: _ :: _ :: _, _, _⟩ => exact .throw _

theorem Order.lower_yields (o : Order) : o.lower.Yields fun x => x.expr.Normal := by
  obtain ⟨e, direction, nulls⟩ := o
  exact e.lower_yields.bind fun x hx => .pure hx.1

theorem lowerOrders_yields (os : List Order) :
    (lowerOrders os).Yields fun xs => ∀ x ∈ xs, x.expr.Normal := by
  cases os with
  | nil => exact .pure (by simp)
  | cons o os =>
    refine o.lower_yields.bind fun x hx => (lowerOrders_yields os).bind fun xs hxs => .pure ?_
    exact List.forall_mem_cons.mpr ⟨hx, hxs⟩

end

theorem lowerAssignments_yields (as : List (String × Expr)) :
    (lowerAssignments as).Yields fun xs => ∀ x ∈ xs, x.2.Normal := by
  induction as with
  | nil => exact .pure (by simp)
  | cons a as ih =>
    refine a.2.lower_yields.bind fun x hx => ih.bind fun xs hxs => .pure ?_
    exact List.forall_mem_cons.mpr ⟨hx.1, hxs⟩

theorem Update.lower_yields (u : Update) :
    u.lower.Yields fun x => (Sql.Statement.update x).Normal := by
  unfold Update.lower
  split
  · exact .throw _
  · rename_i target _
    exact (lowerAssignments_yields _).bind fun as has =>
      (Yields.lift fun t ht => target.toTable_path ht).bind fun t ht =>
      (lowerOption_yields u.filter).bind fun y hy => .pure ⟨ht, has, hy⟩

theorem Delete.lower_yields (d : Delete) :
    d.lower.Yields fun x => (Sql.Statement.delete x).Normal := by
  unfold Delete.lower
  split
  · exact .throw _
  · rename_i target _
    exact (Yields.lift fun t ht => target.toTable_path ht).bind fun t ht =>
      (lowerOption_yields d.filter).bind fun y hy => .pure ⟨ht, hy⟩

theorem Payload.toInsert_normal {p : Payload} {into : Sql.Ref} {x : Sql.Insert}
    (hinto : into.path ≠ []) (h : p.toInsert into = .ok x) : x.Normal := by
  simp only [toInsert, assemble, Outcome.bind_eq_ok, Outcome.pure_eq_ok] at h
  obtain ⟨a, ha, b, hb, c, hc, rfl⟩ := h
  exact ⟨hinto, (checkRows_ok _).mp ⟨a, ha⟩, (checkRows_ok _).mp ⟨b, hb⟩,
    (checkRows_ok _).mp ⟨c, hc⟩⟩

theorem Payload.lower_normal {policy : NestedPolicy} {p : Payload} {into : Sql.Ref}
    {x : Sql.Insert} (hinto : into.path ≠ []) (h : (p.lower policy into).outcome = .ok x) :
    x.Normal := by
  rw [lower_eq, Lowered.meeting_eq_ok] at h
  exact toInsert_normal hinto h.1

theorem Payload.lowerInto_normal {policy : NestedPolicy} {statement : Keyword}
    {target : Option Ref} {p : Payload} {x : Sql.Insert}
    (h : (p.lowerInto policy statement target).outcome = .ok x) : x.Normal := by
  unfold lowerInto at h
  split at h
  · cases h
  · split at h
    · cases h
    · rename_i into hinto
      exact lower_normal (Ref.toTable_path hinto) h

theorem Statement.lower_normal {policy : NestedPolicy} {s : Statement} {n n' : Nat}
    {t : Sql.Statement} (h : (s.lower policy n).outcome = .ok (t, n')) : t.Normal := by
  cases s with
  | select s =>
    obtain ⟨x, hx, rfl⟩ := Lowering.map_eq_ok.mp h
    exact s.lower_yields none n x n' hx
  | insert i =>
    obtain ⟨x, hx, ⟨⟩⟩ := Outcome.map_eq_ok.mp h
    exact Payload.lowerInto_normal hx
  | update u =>
    obtain ⟨x, hx, rfl⟩ := Lowering.map_eq_ok.mp h
    exact u.lower_yields n x n' hx
  | delete d =>
    obtain ⟨x, hx, rfl⟩ := Lowering.map_eq_ok.mp h
    exact d.lower_yields n x n' hx
  | upsert u =>
    obtain ⟨x, hx, ⟨⟩⟩ := Outcome.map_eq_ok.mp h
    exact Payload.lowerInto_normal hx

/-- Every tree that a query is lowered to is in normal form. -/
theorem Query.normal_of_lower {policy : NestedPolicy} {q : Query} {n n' : Nat} {t : Sql.Statement}
    (h : (q.lower policy n).outcome = .ok (t, n')) : t.Normal := by
  unfold Query.lower at h
  split at h
  · exact Statement.lower_normal h
  · cases h

/-- A select with an operation in a call, and a filter whose operands are compounds of one item
around a negated compound. -/
def selectWithGroups : Query where
  select := some {
    source := some (.ref ⟨["A"], none, none, false⟩)
    columns := some [.call ⟨"sum", [.compound [.expr (.ref ⟨["a"], none, none, false⟩), .token "+",
      .expr (.val (.number (.integer 1)))]], none, some "cds.Integer"⟩]
    filter := some (.compound [
      .expr (.compound [.expr (.compound [.expr (.compound [.token "not",
        .expr (.compound [.expr (.ref ⟨["b"], none, none, false⟩), .token "=",
          .expr (.ref ⟨["?"], none, none, false⟩)])])])]),
      .token "and", .expr (.compound [.expr (.ref ⟨["c"], none, none, false⟩)])])
    groupBy := none
    having := none
    orderBy := none
    limit := none
    distinct := false }
  insert := none
  update := none
  delete := none
  upsert := none
  others := []

/-- The compounds of one item leave no trace, and each longer one in them has its own group. -/
theorem selectWithGroups_normal :
    (selectWithGroups.lower .reject 0).outcome = .ok (.select {
      columns := [.expr (.cast (.call "sum" [.binary .add (.ref ⟨["a"], none⟩)
        (.literal (.number (.integer 1)))] none) "cds.Integer") none]
      source := .table ⟨["A"], none⟩
      filter := some (.binary .and (.group (.not (.group (.binary .eq (.ref ⟨["b"], none⟩)
        (.param 1))))) (.ref ⟨["c"], none⟩))
      groupBy := []
      having := none
      orderBy := []
      limit := none
      distinct := false
      label := none }, 1) ∧
    ∃ t, (selectWithGroups.lower .reject 0).outcome = .ok (t, 1) ∧ t.Normal :=
  ⟨rfl, _, rfl, @Query.normal_of_lower .reject selectWithGroups 0 1 _ rfl⟩

end QueryNotation
