import QueryNotation.Proofs.Entries
import QueryNotation.Proofs.Subtrees
import QueryNotation.Proofs.Success
import QueryNotation.Query.Validity

/-! The errors that lowering can end with. Each of them is about one part of a query. A valid query
has its statement and the target of it, and its tree of joins is sound; so lowering can only find
fault with expressions, rows, and the sources of nested selects, at which validation does not
look. -/

namespace QueryNotation

/-- What an error of lowering is about. -/
inductive LoweringError.Subject where
  | statement
  | source
  | expr
  | row
deriving DecidableEq, Repr

/-- The part of a query that an error is about. -/
def LoweringError.subject : LoweringError → Subject
  | .invalidQueryType => .statement
  | .missingTarget _ => .statement
  | .missingSource => .source
  | .invalidSource => .source
  | .joinArity _ => .source
  | .invalidExpression _ => .expr
  | .invalidExpressionType => .expr
  | .unexpectedToken _ => .expr
  | .expectedOperator _ => .expr
  | .emptyReference => .expr
  | .emptyRow _ => .row
  | .nestedEntry _ => .row

/-- Some part is a nested select. -/
def HasSelect (ts : List Subtree) : Prop := ∃ t ∈ ts, t.isSelect

section HasSelect

variable {ts ts' : List Subtree}

@[simp] theorem hasSelect_nil : HasSelect [] ↔ False := by
  simp [HasSelect]

@[simp] theorem hasSelect_cons {t : Subtree} :
    HasSelect (t :: ts) ↔ t.isSelect ∨ HasSelect ts := by
  simp [HasSelect]

@[simp] theorem hasSelect_append : HasSelect (ts ++ ts') ↔ HasSelect ts ∨ HasSelect ts' := by
  simp [HasSelect, or_and_right, exists_or]

end HasSelect

namespace Lowering

/-- The errors of a computation are about expressions, and about sources only if `P` holds. -/
def Faults (m : Lowering α) (P : Prop) : Prop :=
  ∀ n e, m n = .error e → e.subject = .expr ∨ e.subject = .source ∧ P

namespace Faults

variable {m : Lowering α} {k : α → Lowering β} {P Q : Prop}

theorem mono (h : m.Faults P) (hPQ : P → Q) : m.Faults Q :=
  fun n e he => (h n e he).imp_right fun ⟨hs, hP⟩ => ⟨hs, hPQ hP⟩

theorem pure (a : α) : Faults (pure a) P := fun _ _ h => nomatch h

theorem throw {e : LoweringError} (he : e.subject = .expr ∨ e.subject = .source ∧ P) :
    Faults (throw e : Lowering α) P := by
  intro n e' h
  change Except.error e = .error e' at h
  cases h
  exact he

theorem bind (hm : m.Faults P) (hk : ∀ a, (k a).Faults Q) : (m >>= k).Faults (P ∨ Q) := by
  intro n e h
  rcases Lowering.bind_eq_error.mp h with h | ⟨a, n', -, h⟩
  · exact hm.mono .inl n e h
  · exact (hk a).mono .inr n' e h

/-- What is made of a result at the end cannot fail. -/
theorem bind_pure (hm : m.Faults P) (f : α → β) : Faults (m >>= fun a => Pure.pure (f a)) P :=
  (hm.bind fun a => pure (P := P) (f a)).mono (or_self_iff.mp)

theorem map (hm : m.Faults P) (f : α → β) : Faults (f <$> m) P := by
  rw [← bind_pure_comp]
  exact hm.bind_pure f

theorem lift {x : Except LoweringError α} (h : ∀ e, x = .error e → e.subject = .expr) :
    Faults (liftM x : Lowering α) P := by
  intro n e he
  cases x with
  | error e' =>
    change Except.error e' = .error e at he
    cases he
    exact .inl (h _ rfl)
  | ok a => exact nomatch he

end Faults

end Lowering

section Steps

open Lowering (Faults)

theorem Ref.subject_of_toTable {r : Ref} {e : LoweringError} (h : r.toTable = .error e) :
    e.subject = .expr := by
  unfold Ref.toTable at h
  split at h
  · rw [Outcome.throw_eq_error] at h
    subst h
    rfl
  · cases h

theorem Item.subject_of_operatorAt {position : Nat} {x : Item} {e : LoweringError}
    (h : x.operatorAt position = .error e) : e.subject = .expr := by
  cases x with
  | token t => cases h
  | expr e' =>
    rw [Item.operatorAt, Outcome.throw_eq_error] at h
    subst h
    rfl

theorem Ref.lower_faults (r : Ref) : r.lower.Faults False := by
  unfold Ref.lower
  split
  · have hnext : Lowering.nextParam.Faults False := fun _ _ h => nomatch h
    exact hnext.bind_pure _
  · exact (Faults.lift fun _ h => Ref.subject_of_toTable h).bind_pure _

end Steps

section Trees

open Lowering (Faults)

theorem validateSources_pair {left right : Source}
    (h : validateSources [left, right] = .ok ()) :
    left.validate = .ok () ∧ right.validate = .ok () := by
  simp only [validateSources, Outcome.bind_eq_ok] at h
  obtain ⟨_, hleft, _, hright, -⟩ := h
  exact ⟨hleft, hright⟩

/-- A source that is missing or not valid. -/
def SourceUnsound (o : Option Source) : Prop := ∀ s ∈ o, s.validate ≠ .ok ()

-- Faults of a source are carried up to the select that it stands in. Below a nested select any of
-- them may occur, since the select is among the parts of the tree. So the condition on validity is
-- left only for the select at the top and for the sources that are not below another select.
mutual

theorem Expr.lower_faults (e : Expr) : e.lower.Faults (HasSelect e.subtrees) := by
  cases e with
  | ref r => exact r.lower_faults.mono False.elim
  | val v => exact .pure _
  | compound items => exact (lowerCompound_faults items).mono fun h => hasSelect_cons.mpr (.inr h)
  | list items =>
    exact ((lowerExprs_faults items).bind_pure _).mono fun h => hasSelect_cons.mpr (.inr h)
  | call c => exact c.lower_faults.mono fun h => hasSelect_cons.mpr (.inr h)
  | select s label =>
    exact ((s.lower_faults label).bind_pure _).mono (by simp [Expr.subtrees, Subtree.isSelect])
  | bareSelect s =>
    exact ((s.lower_faults none).bind_pure _).mono (by simp [Expr.subtrees, Subtree.isSelect])
  | other => exact .throw (.inl rfl)

theorem lowerExprs_faults (es : List Expr) :
    (lowerExprs es).Faults (HasSelect (exprSubtrees es)) := by
  cases es with
  | nil => exact .pure _
  | cons e es =>
    exact (e.lower_faults.bind fun _ => (lowerExprs_faults es).bind_pure _).mono
      (by simp [exprSubtrees])

theorem lowerOption_faults (o : Option Expr) :
    (lowerOption o).Faults (HasSelect (optionSubtrees o)) := by
  cases o with
  | none => exact .pure _
  | some e => exact e.lower_faults.bind_pure _

theorem Call.lower_faults (c : Call) : c.lower.Faults (HasSelect c.subtrees) := by
  obtain ⟨name, args, label, cast⟩ := c
  exact (lowerExprs_faults args).bind_pure _

theorem Item.lower_faults (x : Item) : x.lower.Faults (HasSelect x.subtrees) := by
  cases x with
  | token t => exact .throw (.inl rfl)
  | expr e => exact e.lower_faults.bind_pure _

theorem lowerCompound_faults (items : List Item) :
    (lowerCompound items).Faults (HasSelect (itemSubtrees items)) := by
  match items with
  | [] => exact .throw (.inl rfl)
  | [x] => exact x.lower_faults.mono (by simp [itemSubtrees])
  | [negation, x] =>
    rw [lowerCompound]
    split
    · exact (x.lower_faults.bind_pure _).mono (by simp +contextual [itemSubtrees])
    · exact .throw (.inl rfl)
  | x :: op :: y :: rest =>
    simp only [lowerCompound]
    split
    · exact (x.lower_faults.bind fun first => lowerChain_faults first 1 _).mono
        (by simp [itemSubtrees])
    · exact .throw (.inl rfl)

theorem lowerChain_faults (left : Sql.Expr) (position : Nat) (items : List Item) :
    (lowerChain left position items).Faults (HasSelect (itemSubtrees items)) := by
  match items with
  | [] => exact .pure _
  | [_] => exact .pure _
  | op :: x :: rest =>
    refine ((Faults.lift (P := False) fun _ h => Item.subject_of_operatorAt h).bind fun op =>
      x.lower_faults.bind fun right =>
        lowerChain_faults (.binary op left right) (position + 2) rest).mono ?_
    simp +contextual [itemSubtrees]

theorem Select.lower_faults (s : Select) (label : Option String) :
    (s.lower label).Faults (HasSelect s.subtrees ∨ SourceUnsound s.source) := by
  obtain ⟨source, columns, filter, groupBy, having, orderBy, limit, distinct⟩ := s
  refine ((lowerColumnList_faults columns).bind fun _ => (lowerSource_faults source).bind fun _ =>
    (lowerOption_faults filter).bind fun _ => (lowerExprList_faults groupBy).bind fun _ =>
    (lowerOption_faults having).bind fun _ => (lowerOrderList_faults orderBy).bind fun _ =>
    (lowerLimit_faults limit).bind_pure _).mono ?_
  simp only [Select.subtrees, hasSelect_append]
  grind

theorem lowerColumnList_faults (o : Option (List Column)) :
    (lowerColumnList o).Faults (HasSelect (columnListSubtrees o)) := by
  match o with
  | none => exact .pure _
  | some [] => exact .pure _
  | some (c :: cs) => exact lowerColumns_faults (c :: cs)

theorem lowerSource_faults (o : Option Source) :
    (lowerSource o).Faults (HasSelect (sourceSubtrees o) ∨ SourceUnsound o) := by
  cases o with
  | none => exact .throw (.inr ⟨rfl, .inr nofun⟩)
  | some source => exact source.lower_faults.mono (by simp [sourceSubtrees, SourceUnsound])

theorem lowerExprList_faults (o : Option (List Expr)) :
    (lowerExprList o).Faults (HasSelect (exprListSubtrees o)) := by
  cases o with
  | none => exact .pure _
  | some es => exact lowerExprs_faults es

theorem lowerOrderList_faults (o : Option (List Order)) :
    (lowerOrderList o).Faults (HasSelect (orderListSubtrees o)) := by
  cases o with
  | none => exact .pure _
  | some orders => exact lowerOrders_faults orders

theorem lowerLimit_faults (o : Option Limit) :
    (lowerLimit o).Faults (HasSelect (limitSubtrees o)) := by
  cases o with
  | none => exact .pure _
  | some l => exact l.lower_faults.bind_pure _

theorem Column.lower_faults (c : Column) : c.lower.Faults (HasSelect c.subtrees) := by
  cases c with
  | wildcard star => exact .pure _
  | other => exact .pure _
  | ref r => exact (r.lower_faults.bind_pure _).mono False.elim
  | call c => exact (c.lower_faults.bind_pure _).mono fun h => hasSelect_cons.mpr (.inr h)

theorem lowerColumns_faults (cs : List Column) :
    (lowerColumns cs).Faults (HasSelect (columnSubtrees cs)) := by
  cases cs with
  | nil => exact .pure _
  | cons c cs =>
    exact (c.lower_faults.bind fun _ => (lowerColumns_faults cs).bind_pure _).mono
      (by simp [columnSubtrees])

theorem Source.lower_faults (s : Source) :
    s.lower.Faults (HasSelect s.subtrees ∨ s.validate ≠ .ok ()) := by
  cases s with
  | ref r => exact (Faults.lift fun _ h => Ref.subject_of_toTable h).bind_pure _
  | select s label =>
    exact ((s.lower_faults label).bind_pure _).mono (by simp [Source.subtrees, Subtree.isSelect])
  | join j => exact j.lower_faults.mono (.imp_left fun h => hasSelect_cons.mpr (.inr h))
  | other => exact .throw (.inr ⟨rfl, .inr Outcome.throw_ne_ok⟩)

theorem Join.lower_faults (j : Join) :
    j.lower.Faults (HasSelect j.subtrees ∨ j.validate ≠ .ok ()) := by
  match j with
  | ⟨kind, [left, right], on, label⟩ =>
    refine (left.lower_faults.bind fun _ => right.lower_faults.bind fun _ =>
      (lowerOption_faults on).bind_pure _).mono ?_
    have hvalid : Join.validate ⟨kind, [left, right], on, label⟩ = .ok () →
        left.validate = .ok () ∧ right.validate = .ok () := validateSources_pair
    simp only [Join.subtrees, sourceListSubtrees, hasSelect_append]
    grind
  | ⟨_, [], _, _⟩ => exact .throw (.inr ⟨rfl, .inr Outcome.throw_ne_ok⟩)
  | ⟨_, [_], _, _⟩ => exact .throw (.inr ⟨rfl, .inr Outcome.throw_ne_ok⟩)
  | ⟨_, _ :: _ :: _ :: _, _, _⟩ =>
    refine .throw (.inr ⟨rfl, .inr ?_⟩)
    simp [Join.validate, Outcome.throw_ne_ok]

theorem Order.lower_faults (o : Order) : o.lower.Faults (HasSelect o.subtrees) := by
  obtain ⟨e, direction, nulls⟩ := o
  exact e.lower_faults.bind_pure _

theorem lowerOrders_faults (os : List Order) :
    (lowerOrders os).Faults (HasSelect (orderSubtrees os)) := by
  cases os with
  | nil => exact .pure _
  | cons o os =>
    exact (o.lower_faults.bind fun _ => (lowerOrders_faults os).bind_pure _).mono
      (by simp [orderSubtrees])

theorem Limit.lower_faults (l : Limit) : l.lower.Faults (HasSelect l.subtrees) := by
  obtain ⟨rows, offset⟩ := l
  exact (rows.lower_faults.bind fun _ => (lowerOption_faults offset).bind_pure _).mono
    (by simp [Limit.subtrees])

end

end Trees

section Statements

variable {policy : NestedPolicy} {n : Nat} {e : LoweringError}

theorem Select.source_of_validate {s : Select} (h : s.validate = .ok ()) :
    ¬ SourceUnsound s.source := by
  unfold Select.validate at h
  split at h
  · rename_i source hsource
    exact fun hunsound => hunsound source hsource h
  · exact absurd h Outcome.throw_ne_ok

theorem Payload.subject_of_checkRows {rows : Option (List (List α))}
    (h : checkRows rows = .error e) : e.subject = .row := by
  unfold checkRows at h
  split at h
  · rw [Outcome.throw_eq_error] at h
    subst h
    rfl
  · cases h

theorem Payload.subject_of_toInsert {into : Sql.Ref} {p : Payload}
    (h : p.toInsert into = .error e) : e.subject = .row := by
  simp only [toInsert, assemble, Outcome.bind_eq_error] at h
  rcases h with h | ⟨_, _, h | ⟨_, _, h | ⟨_, _, h⟩⟩⟩
  · exact subject_of_checkRows h
  · exact subject_of_checkRows h
  · exact subject_of_checkRows h
  · cases h

theorem Payload.subject_of_lower {into : Sql.Ref} {p : Payload}
    (h : (p.lower policy into).outcome = .error e) : e.subject = .row := by
  rw [lower_eq] at h
  rcases Lowered.meeting_eq_error h with h | ⟨field, rfl⟩
  · exact subject_of_toInsert h
  · rfl

theorem Payload.subject_of_lowerInto {keyword : Keyword} {target : Option Ref} {p : Payload}
    (htarget : target ≠ none) (h : (p.lowerInto policy keyword target).outcome = .error e) :
    e.subject = .expr ∨ e.subject = .row := by
  cases target with
  | none => exact absurd rfl htarget
  | some r =>
    rw [lowerInto] at h
    split at h
    · rename_i e' hr
      cases h
      exact .inl (Ref.subject_of_toTable hr)
    · exact .inr (subject_of_lower h)

theorem lowerAssignments_faults (as : List (String × Expr)) :
    (lowerAssignments as).Faults (HasSelect (exprSubtrees (as.map Prod.snd))) := by
  induction as with
  | nil => exact .pure _
  | cons a as ih =>
    exact (a.2.lower_faults.bind fun _ => ih.bind_pure _).mono (by simp [exprSubtrees])

theorem Update.lower_faults {u : Update} (h : u.target ≠ none) :
    u.lower.Faults (HasSelect (Statement.update u).subtrees) := by
  obtain ⟨target, assignments, filter⟩ := u
  cases target with
  | none => exact absurd rfl h
  | some r =>
    refine ((lowerAssignments_faults _).bind fun _ =>
      (Lowering.Faults.lift (P := False) fun _ h => Ref.subject_of_toTable h).bind fun _ =>
      (lowerOption_faults filter).bind_pure _).mono ?_
    simp [Statement.subtrees]

theorem Delete.lower_faults {d : Delete} (h : d.target ≠ none) :
    d.lower.Faults (HasSelect (Statement.delete d).subtrees) := by
  obtain ⟨target, filter⟩ := d
  cases target with
  | none => exact absurd rfl h
  | some r =>
    refine ((Lowering.Faults.lift (P := False) fun _ h => Ref.subject_of_toTable h).bind fun _ =>
      (lowerOption_faults filter).bind_pure _).mono ?_
    simp [Statement.subtrees]

theorem ne_none_of_required {target : Option Ref} {refusal : ValidationError}
    {rest : Except ValidationError Unit}
    (h : (if target.isNone then throw refusal else rest) = .ok ()) : target ≠ none := by
  rintro rfl
  exact Outcome.throw_ne_ok h

/-- A valid statement can only be at fault in its expressions, its rows, and the sources of its
nested selects. -/
theorem Statement.subject_of_lower {s : Statement} (hvalid : s.validate = .ok ())
    (h : (s.lower policy n).outcome = .error e) :
    e.subject = .expr ∨ e.subject = .row ∨ e.subject = .source ∧ HasSelect s.subtrees := by
  cases s with
  | select s =>
    rcases (s.lower_faults none).map _ n e h with hexpr | ⟨hsource, hselect | hunsound⟩
    · exact .inl hexpr
    · exact .inr (.inr ⟨hsource, hselect⟩)
    · exact absurd hunsound (Select.source_of_validate hvalid)
  | insert i =>
    have htarget : i.into ≠ none := ne_none_of_required hvalid
    exact (Payload.subject_of_lowerInto htarget (Outcome.map_eq_error.mp h)).imp_right .inl
  | update u =>
    have htarget : u.target ≠ none := ne_none_of_required hvalid
    exact ((Update.lower_faults htarget).map _ n e h).imp_right .inr
  | delete d =>
    have htarget : d.target ≠ none := ne_none_of_required hvalid
    exact ((Delete.lower_faults htarget).map _ n e h).imp_right .inr
  | upsert u =>
    have htarget : u.target ≠ none := ne_none_of_required hvalid
    exact (Payload.subject_of_lowerInto htarget (Outcome.map_eq_error.mp h)).imp_right .inl

end Statements

section Queries

variable {policy : NestedPolicy} {n : Nat} {e : LoweringError} {q : Query}

theorem Query.statement_of_validate (h : q.validate = .ok ()) :
    ∃ s, q.statement? = some s ∧ s.validate = .ok () := by
  unfold Query.validate at h
  split at h
  · exact absurd h Outcome.throw_ne_ok
  · split at h
    · exact absurd h Outcome.throw_ne_ok
    · rename_i s _ hs
      exact ⟨s, hs, h⟩
    · exact absurd h Outcome.throw_ne_ok

theorem Query.hasSelect_of_statement {s : Statement} (hs : q.statement? = some s)
    (h : HasSelect s.subtrees) : HasSelect q.subtrees := by
  obtain ⟨t, ht, hselect⟩ := h
  exact ⟨t, List.mem_flatMap.mpr ⟨s, List.mem_of_mem_head? hs, ht⟩, hselect⟩

theorem Query.subject_of_lower (hvalid : q.validate = .ok ())
    (h : (q.lower policy n).outcome = .error e) :
    e.subject = .expr ∨ e.subject = .row ∨ e.subject = .source ∧ HasSelect q.subtrees := by
  obtain ⟨s, hs, hvalid'⟩ := Query.statement_of_validate hvalid
  rw [Query.lower, hs] at h
  have hsubject := Statement.subject_of_lower hvalid' h
  exact hsubject.imp_right (.imp_right (.imp_right (Query.hasSelect_of_statement hs)))

/-- Lowering of a valid query never misses the statement or its target; and if no select is nested
in the query, it never finds fault with a source. -/
theorem Query.lower_ne_error_of_validate (hvalid : q.validate = .ok ()) (policy : NestedPolicy)
    (n : Nat) :
    (q.lower policy n).outcome ≠ .error .invalidQueryType ∧
      (∀ keyword, (q.lower policy n).outcome ≠ .error (.missingTarget keyword)) ∧
      ((∀ t ∈ q.subtrees, ¬ t.isSelect) →
        (q.lower policy n).outcome ≠ .error .missingSource ∧
        (q.lower policy n).outcome ≠ .error .invalidSource ∧
        ∀ found, (q.lower policy n).outcome ≠ .error (.joinArity found)) := by
  have hstatement {e : LoweringError} (he : e.subject = .statement) :
      (q.lower policy n).outcome ≠ .error e := by
    intro h
    rcases Query.subject_of_lower hvalid h with h | h | ⟨h, -⟩ <;> simp [he] at h
  have hsource {e : LoweringError} (he : e.subject = .source)
      (hfree : ∀ t ∈ q.subtrees, ¬ t.isSelect) : (q.lower policy n).outcome ≠ .error e := by
    intro h
    rcases Query.subject_of_lower hvalid h with h | h | ⟨-, t, ht, hselect⟩
    · simp [he] at h
    · simp [he] at h
    · exact hfree t ht hselect
  exact ⟨hstatement rfl, fun _ => hstatement rfl,
    fun hfree => ⟨hsource rfl hfree, hsource rfl hfree, fun _ => hsource rfl hfree⟩⟩

end Queries

/-- A select from a join within a join, whose inner condition has no known form. -/
def joinWithUnknownCondition : Query where
  select := some {
    source := some (.join {
      kind := .left
      args := [.ref ⟨["A"], none, none, false⟩, .join {
        kind := .inner
        args := [.ref ⟨["B"], none, none, false⟩, .ref ⟨["C"], none, none, false⟩]
        on := some .other
        label := none }]
      on := none
      label := none })
    columns := none
    filter := none
    groupBy := none
    having := none
    orderBy := none
    limit := none
    distinct := false }
  insert := none
  update := none
  delete := none
  upsert := none
  others := []

theorem joinWithUnknownCondition_faults :
    joinWithUnknownCondition.validate = .ok () ∧
      (∀ t ∈ joinWithUnknownCondition.subtrees, ¬ t.isSelect) ∧
      (joinWithUnknownCondition.lower .skip 0).outcome = .error .invalidExpressionType ∧
      (joinWithUnknownCondition.lower .skip 0).outcome ≠ .error .invalidQueryType ∧
      (∀ keyword,
        (joinWithUnknownCondition.lower .skip 0).outcome ≠ .error (.missingTarget keyword)) ∧
      (joinWithUnknownCondition.lower .skip 0).outcome ≠ .error .missingSource ∧
      (joinWithUnknownCondition.lower .skip 0).outcome ≠ .error .invalidSource ∧
      ∀ found, (joinWithUnknownCondition.lower .skip 0).outcome ≠ .error (.joinArity found) := by
  have hall : joinWithUnknownCondition.subtrees.all (!·.isSelect) = true := rfl
  have hfree : ∀ t ∈ joinWithUnknownCondition.subtrees, ¬ t.isSelect := by
    simpa [List.all_eq_true] using hall
  obtain ⟨htype, htarget, hsource⟩ :=
    Query.lower_ne_error_of_validate (q := joinWithUnknownCondition) rfl .skip 0
  exact ⟨rfl, hfree, rfl, htype, htarget, hsource hfree⟩

end QueryNotation
