import QueryNotation.Lowering.Statement
import QueryNotation.Proofs.Changes
import QueryNotation.Proofs.Success

/-! The number that lowering starts from. Lowering never looks at the last parameter number, it only
counts on from it. So from a number larger by `s` it fails in the same way, or builds the same tree
with every parameter number larger by `s`. -/

namespace QueryNotation

namespace Lowering

/-- From a number larger by `s`, the computation `m'` fails as `m` does, or gives `f` of what `m`
gives and a last number larger by `s`. -/
def Shifts (s : Nat) (f : α → β) (m : Lowering α) (m' : Lowering β) : Prop :=
  ∀ n, m' (n + s) = (m n).map fun r => (f r.1, r.2 + s)

namespace Shifts

variable {s : Nat} {f : α → β}

theorem pure (f : α → β) (a : α) : Shifts s f (pure a) (pure (f a)) := fun _ => rfl

theorem throw (e : LoweringError) : Shifts s f (throw e) (throw e) := fun _ => rfl

theorem bind {g : γ → δ} {m : Lowering α} {m' : Lowering β} {k : α → Lowering γ}
    {k' : β → Lowering δ} (hm : Shifts s f m m') (hk : ∀ a, Shifts s g (k a) (k' (f a))) :
    Shifts s g (m >>= k) (m' >>= k') := by
  intro n
  change (m' (n + s) >>= fun r => k' r.1 r.2) = (m n >>= fun r => k r.1 r.2).map _
  rw [hm n]
  cases m n with
  | error e => rfl
  | ok r => exact hk r.1 r.2

theorem map {f : α → α} {m : Lowering α} (hm : Shifts s f m m) (h : α → β) (g : β → β)
    (hg : ∀ a, g (h a) = h (f a)) : Shifts s g (h <$> m) (h <$> m) := by
  rw [← bind_pure_comp]
  refine hm.bind fun a => ?_
  rw [← hg a]
  exact pure g (h a)

/-- What can fail and takes no number is the same from every number. -/
theorem lift (x : Except LoweringError α) :
    Shifts s id (liftM x : Lowering α) (liftM x : Lowering α) := by
  intro n
  cases x <;> rfl

theorem nextParam : Shifts s (· + s) nextParam nextParam := by
  intro n
  change Except.ok (n + s + 1, n + s + 1) = Except.ok (n + 1 + s, n + 1 + s)
  rw [Nat.add_right_comm]

end Shifts

end Lowering

open Lowering (Shifts)
open Sql (Change)

section Trees

variable (s : Nat)

theorem Ref.lower_shifts (r : Ref) : Shifts s (Sql.Expr.changed (.shift s)) r.lower r.lower := by
  unfold Ref.lower
  split
  · refine Shifts.nextParam.bind fun i => ?_
    have h := Shifts.pure (s := s) (Sql.Expr.changed (.shift s)) ((Sql.Expr.param i).castTo r.cast)
    rwa [Sql.Expr.changed_castTo] at h
  · refine (Shifts.lift r.toTable).bind fun t => ?_
    have h := Shifts.pure (s := s) (Sql.Expr.changed (.shift s)) ((Sql.Expr.ref t).castTo r.cast)
    rwa [Sql.Expr.changed_castTo] at h

-- One theorem for each function of the mutual recursion, which goes step by step through both runs.
mutual

/-- An expression is lowered to the same tree from every number, but for its parameters. -/
theorem Expr.lower_shifts (e : Expr) : Shifts s (Sql.Expr.changed (.shift s)) e.lower e.lower := by
  cases e with
  | ref r => exact r.lower_shifts s
  | val v => exact .pure _ _
  | compound items => exact lowerCompound_shifts items
  | list items => exact (lowerExprs_shifts items).bind fun xs => .pure _ _
  | call c => exact c.lower_shifts
  | select x label => exact (x.lower_shifts label).bind fun y => .pure _ _
  | bareSelect x => exact (x.lower_shifts none).bind fun y => .pure _ _
  | other => exact .throw _

theorem lowerExprs_shifts (es : List Expr) :
    Shifts s (Sql.changedExprs (.shift s)) (lowerExprs es) (lowerExprs es) := by
  cases es with
  | nil => exact .pure _ _
  | cons e es => exact e.lower_shifts.bind fun x => (lowerExprs_shifts es).bind fun xs => .pure _ _

theorem lowerOption_shifts (o : Option Expr) :
    Shifts s (Sql.changedOption (.shift s)) (lowerOption o) (lowerOption o) := by
  cases o with
  | none => exact .pure _ _
  | some e => exact e.lower_shifts.bind fun x => .pure _ _

theorem Call.lower_shifts (c : Call) : Shifts s (Sql.Expr.changed (.shift s)) c.lower c.lower := by
  obtain ⟨name, args, label, cast⟩ := c
  refine (lowerExprs_shifts args).bind fun xs => ?_
  have h := Shifts.pure (s := s) (Sql.Expr.changed (.shift s))
    ((Sql.Expr.call name xs label).castTo cast)
  rwa [Sql.Expr.changed_castTo] at h

theorem Item.lower_shifts (i : Item) : Shifts s (Sql.Expr.changed (.shift s)) i.lower i.lower := by
  cases i with
  | token t => exact .throw _
  | expr e =>
    refine e.lower_shifts.bind fun x => ?_
    -- Whether an operand is a group is seen from the query, not from the tree.
    cases e.isGroup with
    | true => exact .pure _ _
    | false => exact .pure _ _

theorem lowerCompound_shifts (items : List Item) :
    Shifts s (Sql.Expr.changed (.shift s)) (lowerCompound items) (lowerCompound items) := by
  match items with
  | [] => exact .throw _
  | [i] => exact i.lower_shifts
  | [negation, i] =>
    rw [lowerCompound]
    split
    · exact i.lower_shifts.bind fun x => .pure _ _
    · exact .throw _
  | i :: op :: j :: rest =>
    simp only [lowerCompound]
    split
    · exact i.lower_shifts.bind fun x => lowerChain_shifts x 1 (op :: j :: rest)
    · exact .throw _

/-- What stands to the left is shifted already when the fold goes on from it. -/
theorem lowerChain_shifts (left : Sql.Expr) (position : Nat) (items : List Item) :
    Shifts s (Sql.Expr.changed (.shift s)) (lowerChain left position items)
      (lowerChain (left.changed (.shift s)) position items) := by
  match items with
  | [] => exact .pure _ _
  | [_] => exact .pure _ _
  | op :: i :: rest =>
    refine (Shifts.lift (op.operatorAt position)).bind fun op' => ?_
    exact i.lower_shifts.bind fun x => lowerChain_shifts (.binary op' left x) (position + 2) rest

theorem Select.lower_shifts (label : Option String) (x : Select) :
    Shifts s (fun y => y.changed (.shift s) y.label) (x.lower label) (x.lower label) := by
  obtain ⟨source, columns, filter, groupBy, having, orderBy, limit, distinct⟩ := x
  refine (lowerColumnList_shifts columns).bind fun _ => ?_
  refine (lowerSource_shifts source).bind fun _ => ?_
  refine (lowerOption_shifts filter).bind fun _ => ?_
  refine (lowerExprList_shifts groupBy).bind fun _ => ?_
  refine (lowerOption_shifts having).bind fun _ => ?_
  refine (lowerOrderList_shifts orderBy).bind fun _ => ?_
  exact (lowerLimit_shifts limit).bind fun _ => .pure _ _

theorem lowerColumnList_shifts (o : Option (List Column)) :
    Shifts s (Sql.changedColumns (.shift s)) (lowerColumnList o) (lowerColumnList o) := by
  match o with
  | none => exact .pure _ _
  | some [] => exact .pure _ _
  | some (c :: cs) => exact lowerColumns_shifts (c :: cs)

theorem lowerSource_shifts (o : Option Source) :
    Shifts s (Sql.Source.changed (.shift s)) (lowerSource o) (lowerSource o) := by
  cases o with
  | none => exact .throw _
  | some source => exact source.lower_shifts

theorem lowerExprList_shifts (o : Option (List Expr)) :
    Shifts s (Sql.changedExprs (.shift s)) (lowerExprList o) (lowerExprList o) := by
  cases o with
  | none => exact .pure _ _
  | some es => exact lowerExprs_shifts es

theorem lowerOrderList_shifts (o : Option (List Order)) :
    Shifts s (Sql.changedOrders (.shift s)) (lowerOrderList o) (lowerOrderList o) := by
  cases o with
  | none => exact .pure _ _
  | some orders => exact lowerOrders_shifts orders

theorem lowerLimit_shifts (o : Option Limit) :
    Shifts s (Sql.changedLimit (.shift s)) (lowerLimit o) (lowerLimit o) := by
  match o with
  | none => exact .pure _ _
  | some ⟨rows, offset⟩ =>
    simp only [lowerLimit, Limit.lower, bind_assoc, pure_bind]
    exact rows.lower_shifts.bind fun _ => (lowerOption_shifts offset).bind fun _ => .pure _ _

theorem Column.lower_shifts (c : Column) :
    Shifts s (Sql.Column.changed (.shift s)) c.lower c.lower := by
  cases c with
  | wildcard star => exact .pure _ _
  | other => exact .pure _ _
  | ref r => exact (r.lower_shifts s).bind fun x => .pure _ _
  | call c => exact c.lower_shifts.bind fun x => .pure _ _

theorem lowerColumns_shifts (cs : List Column) :
    Shifts s (Sql.changedColumns (.shift s)) (lowerColumns cs) (lowerColumns cs) := by
  cases cs with
  | nil => exact .pure _ _
  | cons c cs =>
    exact c.lower_shifts.bind fun x => (lowerColumns_shifts cs).bind fun xs => .pure _ _

theorem Source.lower_shifts (x : Source) :
    Shifts s (Sql.Source.changed (.shift s)) x.lower x.lower := by
  cases x with
  | ref r => exact (Shifts.lift r.toTable).bind fun t => .pure _ _
  | select x label => exact (x.lower_shifts label).bind fun y => .pure _ _
  | join j => exact j.lower_shifts
  | other => exact .throw _

theorem Join.lower_shifts (j : Join) :
    Shifts s (Sql.Source.changed (.shift s)) j.lower j.lower := by
  match j with
  | ⟨kind, [left, right], on, label⟩ =>
    refine left.lower_shifts.bind fun l => ?_
    refine right.lower_shifts.bind fun r => ?_
    exact (lowerOption_shifts on).bind fun o => .pure _ _
  | ⟨_, [], _, _⟩ => exact .throw _
  | ⟨_, [_], _, _⟩ => exact .throw _
  | ⟨_, _ :: _ :: _ :: _, _, _⟩ => exact .throw _

theorem Order.lower_shifts (o : Order) :
    Shifts s (Sql.Order.changed (.shift s)) o.lower o.lower := by
  obtain ⟨e, direction, nulls⟩ := o
  exact e.lower_shifts.bind fun x => .pure _ _

theorem lowerOrders_shifts (os : List Order) :
    Shifts s (Sql.changedOrders (.shift s)) (lowerOrders os) (lowerOrders os) := by
  cases os with
  | nil => exact .pure _ _
  | cons o os =>
    exact o.lower_shifts.bind fun x => (lowerOrders_shifts os).bind fun xs => .pure _ _

end

theorem lowerAssignments_shifts (as : List (String × Expr)) :
    Shifts s (Sql.changedAssignments (.shift s)) (lowerAssignments as) (lowerAssignments as) := by
  induction as with
  | nil => exact .pure _ _
  | cons a as ih => exact (a.2.lower_shifts s).bind fun x => ih.bind fun xs => .pure _ _

theorem Update.lower_shifts (u : Update) :
    Shifts s (fun x => ⟨x.table, Sql.changedAssignments (.shift s) x.assignments,
      Sql.changedOption (.shift s) x.filter⟩) u.lower u.lower := by
  obtain ⟨target, assignments, filter⟩ := u
  cases target with
  | none => exact .throw _
  | some r =>
    refine (lowerAssignments_shifts s (assignments.getD [])).bind fun _ => ?_
    refine (Shifts.lift r.toTable).bind fun _ => ?_
    exact (lowerOption_shifts s filter).bind fun _ => .pure _ _

theorem Delete.lower_shifts (d : Delete) :
    Shifts s (fun x => ⟨x.table, Sql.changedOption (.shift s) x.filter⟩) d.lower d.lower := by
  obtain ⟨target, filter⟩ := d
  cases target with
  | none => exact .throw _
  | some r =>
    refine (Shifts.lift r.toTable).bind fun _ => ?_
    exact (lowerOption_shifts s filter).bind fun _ => .pure _ _

end Trees

/-- What is lowered without a number comes with the number that it was started from. -/
theorem Lowered.outcome_map_start (l : Lowered α) (f : α → Sql.Statement) (n s : Nat)
    (h : ∀ a, (f a).changed (.shift s) = f a) :
    (l.map fun a => (f a, n + s)).outcome =
      (l.map fun a => (f a, n)).outcome.map fun r => (r.1.changed (.shift s), r.2 + s) := by
  obtain ⟨dropped, outcome⟩ := l
  cases outcome with
  | error e => rfl
  | ok a => exact congrArg (fun t => Except.ok (t, n + s)) (h a).symm

theorem Statement.lower_shifts (policy : NestedPolicy) (n s : Nat) (x : Statement) :
    (x.lower policy (n + s)).outcome =
      (x.lower policy n).outcome.map fun r => (r.1.changed (.shift s), r.2 + s) := by
  cases x with
  | select x => exact (x.lower_shifts s none).map Sql.Statement.select _ (fun _ => rfl) n
  | insert i => exact Lowered.outcome_map_start _ _ n s fun _ => rfl
  | update u => exact (u.lower_shifts s).map Sql.Statement.update _ (fun _ => rfl) n
  | delete d => exact (d.lower_shifts s).map Sql.Statement.delete _ (fun _ => rfl) n
  | upsert u => exact Lowered.outcome_map_start _ _ n s fun _ => rfl

theorem Statement.dropped_lower (policy : NestedPolicy) (n n' : Nat) (x : Statement) :
    (x.lower policy n).dropped = (x.lower policy n').dropped := by
  cases x <;> rfl

/-- Lowering a query from the number `s` fails as it does from zero, or gives the same tree with
every parameter number larger by `s`, and a last number larger by `s`. It drops the same fields. -/
theorem Query.lower_from (policy : NestedPolicy) (s : Nat) (q : Query) :
    (q.lower policy s).outcome = ((q.lower policy 0).outcome.map fun r =>
      (r.1.changed (.shift s), r.2 + s)) ∧
    (q.lower policy s).dropped = (q.lower policy 0).dropped := by
  unfold Query.lower
  cases q.statement? with
  | none => exact ⟨rfl, rfl⟩
  | some x =>
    have h := x.lower_shifts policy 0 s
    rw [Nat.zero_add] at h
    exact ⟨h, x.dropped_lower policy s 0⟩

end QueryNotation
