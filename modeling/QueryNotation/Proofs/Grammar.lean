import QueryNotation.Proofs.Entries
import QueryNotation.Proofs.Success

/-! The grammar of queries. `WellFormed` says of every part of a query what it has to look like, and
a query is lowered exactly if its statement is well formed. The last parameter number has no part
in that, and the policy on nested fields has one only in the entries of an insert or upsert. -/

namespace QueryNotation

def Item.isToken : Item → Bool
  | .token _ => true
  | .expr _ => false

mutual

/-- A compound has operands and operator tokens in turn, an operand at both ends, or is an operand
after a token that negates it. -/
inductive Expr.WellFormed : Expr → Prop
  | ref {r : Ref} (h : r.path ≠ [] ∨ r.isParam) : Expr.WellFormed (.ref r)
  | val (v : Scalar) : Expr.WellFormed (.val v)
  | compound {items : List Item} (odd : items.length % 2 = 1)
      (tokens : ∀ i (h : i < items.length), items[i].isToken ↔ i % 2 = 1)
      (operands : ∀ e, .expr e ∈ items → e.WellFormed) : Expr.WellFormed (.compound items)
  | negation {t : String} {e : Expr} (ht : t = "not" ∨ t = "NOT") (he : e.WellFormed) :
      Expr.WellFormed (.compound [.token t, .expr e])
  | list {items : List Expr} (h : ∀ e ∈ items, e.WellFormed) : Expr.WellFormed (.list items)
  | call {c : Call} (h : ∀ e ∈ c.args, e.WellFormed) : Expr.WellFormed (.call c)
  | select {s : Select} (h : s.WellFormed) (label : Option String) :
      Expr.WellFormed (.select s label)
  | bareSelect {s : Select} (h : s.WellFormed) : Expr.WellFormed (.bareSelect s)

inductive Select.WellFormed : Select → Prop
  | mk {s : Select} {x : Source} (hsource : s.source = some x) (source : x.WellFormed)
      (columns : ∀ cs ∈ s.columns, ∀ c ∈ cs, c.WellFormed)
      (filter : ∀ e ∈ s.filter, e.WellFormed)
      (groupBy : ∀ es ∈ s.groupBy, ∀ e ∈ es, e.WellFormed)
      (having : ∀ e ∈ s.having, e.WellFormed)
      (orderBy : ∀ os ∈ s.orderBy, ∀ o ∈ os, o.expr.WellFormed)
      (rows : ∀ l ∈ s.limit, l.rows.WellFormed)
      (offset : ∀ l ∈ s.limit, ∀ e ∈ l.offset, e.WellFormed) : s.WellFormed

/-- A join has two sources; its condition counts for every kind of join. -/
inductive Source.WellFormed : Source → Prop
  | ref {r : Ref} (h : r.path ≠ []) : Source.WellFormed (.ref r)
  | select {s : Select} (h : s.WellFormed) (label : Option String) :
      Source.WellFormed (.select s label)
  | join {j : Join} {left right : Source} (hargs : j.args = [left, right]) (left : left.WellFormed)
      (right : right.WellFormed) (on : ∀ e ∈ j.on, e.WellFormed) : Source.WellFormed (.join j)

inductive Column.WellFormed : Column → Prop
  | wildcard (star : Bool) : Column.WellFormed (.wildcard star)
  | other : Column.WellFormed .other
  | ref {r : Ref} (h : r.path ≠ [] ∨ r.isParam) : Column.WellFormed (.ref r)
  | call {c : Call} (h : ∀ e ∈ c.args, e.WellFormed) : Column.WellFormed (.call c)

end

def Json.isNested : Json → Bool
  | .array _ => true
  | .object _ => true
  | _ => false

/-- Every row of a payload has a value that can be written, and no field is nested where nested
fields are rejected. All collections count, also those that are not written. -/
structure Payload.WellFormed (policy : NestedPolicy) (p : Payload) : Prop where
  entries : ∀ es ∈ p.entries, ∀ e ∈ es, ∃ field ∈ e, ¬ field.2.isNested
  values : ∀ rows ∈ p.values, ∀ row ∈ rows, row ≠ []
  rows : ∀ rows ∈ p.rows, ∀ row ∈ rows, row ≠ []
  flat : policy = .reject → ∀ es ∈ p.entries, ∀ e ∈ es, ∀ field ∈ e, ¬ field.2.isNested

def TargetWellFormed (target : Option Ref) : Prop := ∃ r, target = some r ∧ r.path ≠ []

def Statement.WellFormed (policy : NestedPolicy) : Statement → Prop
  | .select s => s.WellFormed
  | .insert i => TargetWellFormed i.into ∧ i.payload.WellFormed policy
  | .update u =>
    TargetWellFormed u.target ∧ (∀ as ∈ u.assignments, ∀ a ∈ as, a.2.WellFormed) ∧
      ∀ e ∈ u.filter, e.WellFormed
  | .delete d => TargetWellFormed d.target ∧ ∀ e ∈ d.filter, e.WellFormed
  | .upsert u => TargetWellFormed u.target ∧ u.payload.WellFormed policy

section Compounds

/-- Tokens stand exactly at the odd positions, the first item being at position `p`. -/
def TokensAtOdd (p : Nat) (items : List Item) : Prop :=
  ∀ i (h : i < items.length), items[i].isToken ↔ (p + i) % 2 = 1

theorem tokensAtOdd_nil (p : Nat) : TokensAtOdd p [] := by
  intro i h
  cases h

theorem tokensAtOdd_cons {p : Nat} {x : Item} {xs : List Item} :
    TokensAtOdd p (x :: xs) ↔ (x.isToken ↔ p % 2 = 1) ∧ TokensAtOdd (p + 1) xs := by
  constructor
  · intro h
    refine ⟨h 0 (by simp), fun i hi => ?_⟩
    have hsucc := h (i + 1) (by simpa using hi)
    rwa [List.getElem_cons_succ, ← Nat.add_assoc, Nat.add_right_comm] at hsucc
  · rintro ⟨hx, hxs⟩ i h
    cases i with
    | zero => exact hx
    | succ i =>
      rw [List.getElem_cons_succ, ← Nat.add_assoc, Nat.add_right_comm]
      exact hxs i (by simpa using h)

theorem forall_operand_cons {P : Expr → Prop} {x : Item} {xs : List Item} :
    (∀ e, .expr e ∈ x :: xs → P e) ↔ (∀ e, x = .expr e → P e) ∧ ∀ e, .expr e ∈ xs → P e := by
  simp only [List.mem_cons, or_imp, forall_and]
  refine and_congr_left fun _ => forall_congr' fun e => ?_
  rw [eq_comm]

theorem Expr.wellFormed_compound {items : List Item} : (Expr.compound items).WellFormed ↔
    (items.length % 2 = 1 ∧ TokensAtOdd 0 items ∧ ∀ e, .expr e ∈ items → e.WellFormed) ∨
    ∃ t e, items = [.token t, .expr e] ∧ (t = "not" ∨ t = "NOT") ∧ e.WellFormed := by
  simp only [TokensAtOdd, Nat.zero_add]
  constructor
  · intro h
    cases h with
    | compound odd tokens operands => exact .inl ⟨odd, tokens, operands⟩
    | negation ht he => exact .inr ⟨_, _, rfl, ht, he⟩
  · rintro (⟨odd, tokens, operands⟩ | ⟨t, e, rfl, ht, he⟩)
    · exact .compound odd tokens operands
    · exact .negation ht he

end Compounds

section Rules

theorem Expr.wellFormed_ref {r : Ref} : (Expr.ref r).WellFormed ↔ r.path ≠ [] ∨ r.isParam :=
  ⟨fun | .ref h => h, .ref⟩

theorem Expr.wellFormed_list {items : List Expr} :
    (Expr.list items).WellFormed ↔ ∀ e ∈ items, e.WellFormed :=
  ⟨fun | .list h => h, .list⟩

theorem Expr.wellFormed_call {c : Call} :
    (Expr.call c).WellFormed ↔ ∀ e ∈ c.args, e.WellFormed :=
  ⟨fun | .call h => h, .call⟩

theorem Expr.wellFormed_select {s : Select} {label : Option String} :
    (Expr.select s label).WellFormed ↔ s.WellFormed :=
  ⟨fun | .select h _ => h, (.select · label)⟩

theorem Expr.wellFormed_bareSelect {s : Select} : (Expr.bareSelect s).WellFormed ↔ s.WellFormed :=
  ⟨fun | .bareSelect h => h, .bareSelect⟩

theorem Select.wellFormed_iff {s : Select} : s.WellFormed ↔
    (∀ cs ∈ s.columns, ∀ c ∈ cs, c.WellFormed) ∧ (∃ x, s.source = some x ∧ x.WellFormed) ∧
    (∀ e ∈ s.filter, e.WellFormed) ∧ (∀ es ∈ s.groupBy, ∀ e ∈ es, e.WellFormed) ∧
    (∀ e ∈ s.having, e.WellFormed) ∧ (∀ os ∈ s.orderBy, ∀ o ∈ os, o.expr.WellFormed) ∧
    ∀ l ∈ s.limit, l.rows.WellFormed ∧ ∀ e ∈ l.offset, e.WellFormed := by
  constructor
  · rintro ⟨hx, source, columns, filter, groupBy, having, orderBy, rows, offset⟩
    exact ⟨columns, ⟨_, hx, source⟩, filter, groupBy, having, orderBy,
      fun l hl => ⟨rows l hl, offset l hl⟩⟩
  · rintro ⟨columns, ⟨x, hx, source⟩, filter, groupBy, having, orderBy, limit⟩
    exact .mk hx source columns filter groupBy having orderBy (fun l hl => (limit l hl).1)
      fun l hl => (limit l hl).2

theorem Source.wellFormed_ref {r : Ref} : (Source.ref r).WellFormed ↔ r.path ≠ [] :=
  ⟨fun | .ref h => h, .ref⟩

theorem Source.wellFormed_select {s : Select} {label : Option String} :
    (Source.select s label).WellFormed ↔ s.WellFormed :=
  ⟨fun | .select h _ => h, (.select · label)⟩

theorem Source.wellFormed_join {j : Join} : (Source.join j).WellFormed ↔
    ∃ left right, j.args = [left, right] ∧ left.WellFormed ∧ right.WellFormed ∧
      ∀ e ∈ j.on, e.WellFormed :=
  ⟨fun | .join hargs hl hr hon => ⟨_, _, hargs, hl, hr, hon⟩,
    fun ⟨_, _, hargs, hl, hr, hon⟩ => .join hargs hl hr hon⟩

theorem Column.wellFormed_ref {r : Ref} : (Column.ref r).WellFormed ↔ r.path ≠ [] ∨ r.isParam :=
  ⟨fun | .ref h => h, .ref⟩

theorem Column.wellFormed_call {c : Call} :
    (Column.call c).WellFormed ↔ ∀ e ∈ c.args, e.WellFormed :=
  ⟨fun | .call h => h, .call⟩

end Rules

section Steps

open Lowering (Accepts)

theorem Item.operatorAt_ok (position : Nat) (x : Item) :
    (∃ op, x.operatorAt position = .ok op) ↔ x.isToken := by
  cases x with
  | token t => exact iff_of_true ⟨_, rfl⟩ rfl
  | expr e => exact iff_of_false (fun ⟨_, h⟩ => Outcome.throw_ne_ok h) nofun

theorem Item.isNegation_iff (x : Item) :
    x.isNegation ↔ ∃ t, x = .token t ∧ (t = "not" ∨ t = "NOT") := by
  cases x <;> simp [Item.isNegation, QueryNotation.isNegation]

theorem Ref.toTable_ok (r : Ref) : (∃ t, r.toTable = .ok t) ↔ r.path ≠ [] := by
  unfold Ref.toTable
  split
  · rename_i h
    rw [List.isEmpty_iff] at h
    exact iff_of_false (fun ⟨_, h⟩ => Outcome.throw_ne_ok h) (fun hne => hne h)
  · rename_i h
    rw [List.isEmpty_iff] at h
    exact iff_of_true ⟨_, rfl⟩ h

theorem Lowering.nextParam_accepts : nextParam.Accepts True :=
  fun _ => iff_of_true ⟨_, rfl⟩ trivial

theorem Ref.lower_accepts (r : Ref) : r.lower.Accepts (r.path ≠ [] ∨ r.isParam) := by
  unfold Ref.lower
  split
  · rename_i h
    exact (Lowering.nextParam_accepts.bind_pure _).congr (iff_of_true trivial (.inr h))
  · rename_i h
    exact ((Accepts.lift r.toTable_ok).bind_pure _).congr (or_iff_left h).symm

end Steps

section Trees

open Lowering (Accepts)

-- One theorem for each function of the mutual recursion: the steps of a function succeed together
-- exactly if the conditions of all of them hold, and the grammar names the same conditions.
mutual

theorem Expr.lower_accepts (e : Expr) : e.lower.Accepts e.WellFormed := by
  cases e with
  | ref r => exact r.lower_accepts.congr Expr.wellFormed_ref.symm
  | val v => exact (Accepts.pure _).congr (iff_of_true trivial (.val v))
  | compound items => exact lowerCompound_accepts items
  | list items => exact ((lowerExprs_accepts items).bind_pure _).congr Expr.wellFormed_list.symm
  | call c => exact c.lower_accepts.congr Expr.wellFormed_call.symm
  | select s label =>
    exact ((s.lower_accepts label).bind_pure _).congr Expr.wellFormed_select.symm
  | bareSelect s =>
    exact ((s.lower_accepts none).bind_pure _).congr Expr.wellFormed_bareSelect.symm
  | other => exact (Accepts.throw _).congr (iff_of_false id nofun)

theorem lowerExprs_accepts (es : List Expr) :
    (lowerExprs es).Accepts (∀ e ∈ es, e.WellFormed) := by
  cases es with
  | nil => exact (Accepts.pure _).congr (by simp)
  | cons e es =>
    exact (e.lower_accepts.bind fun _ => (lowerExprs_accepts es).bind_pure _).congr (by simp)

theorem lowerOption_accepts (o : Option Expr) :
    (lowerOption o).Accepts (∀ e ∈ o, e.WellFormed) := by
  cases o with
  | none => exact (Accepts.pure _).congr (by simp)
  | some e => exact (e.lower_accepts.bind_pure _).congr (by simp)

theorem Call.lower_accepts (c : Call) : c.lower.Accepts (∀ e ∈ c.args, e.WellFormed) := by
  obtain ⟨name, args, label, cast⟩ := c
  exact (lowerExprs_accepts args).bind_pure _

theorem Item.lower_accepts (x : Item) :
    x.lower.Accepts (¬ x.isToken ∧ ∀ e, x = .expr e → e.WellFormed) := by
  cases x with
  | token t => exact (Accepts.throw _).congr (by simp [Item.isToken])
  | expr e => exact (e.lower_accepts.bind_pure _).congr (by simp [Item.isToken])

theorem lowerCompound_accepts (items : List Item) :
    (lowerCompound items).Accepts (Expr.compound items).WellFormed := by
  rw [Expr.wellFormed_compound]
  match items with
  | [] => exact (Accepts.throw _).congr (by simp)
  | [x] =>
    refine x.lower_accepts.congr ?_
    rw [tokensAtOdd_cons, forall_operand_cons]
    simp [tokensAtOdd_nil]
  | [negation, x] =>
    rw [lowerCompound]
    split
    · rename_i h
      obtain ⟨t, rfl, ht⟩ := negation.isNegation_iff.mp h
      refine (x.lower_accepts.bind_pure _).congr ?_
      cases x with
      | token t' => simp [Item.isToken]
      | expr e =>
        simp only [Item.isToken, Bool.false_eq_true, not_false_eq_true, true_and]
        constructor
        · intro he
          exact .inr ⟨t, e, rfl, ht, he e rfl⟩
        · rintro (⟨hodd, -⟩ | ⟨_, _, ⟨⟩, -, he⟩) e' ⟨⟩
          · simp at hodd
          · exact he
    · rename_i h
      rw [Item.isNegation_iff] at h
      refine (Accepts.throw _).congr (iff_of_false id ?_)
      rintro (⟨hodd, -⟩ | ⟨t, e, hitems, ht, -⟩)
      · simp at hodd
      · cases hitems
        exact h ⟨t, rfl, ht⟩
  | x :: op :: y :: rest =>
    -- Three items or more are no negation, so only their number and their order count.
    have hnegation : ¬ ∃ t e, x :: op :: y :: rest = [.token t, .expr e] ∧
        (t = "not" ∨ t = "NOT") ∧ e.WellFormed := by simp
    simp only [lowerCompound, hnegation, or_false]
    split
    · rename_i heven
      refine (x.lower_accepts.bind fun first => lowerChain_accepts first 1 rfl _ heven).congr ?_
      have hodd : (x :: op :: y :: rest).length % 2 = 1 := by
        rw [List.length_cons]
        omega
      have hx : (x.isToken ↔ 0 % 2 = 1) ↔ ¬ x.isToken := by simp
      rw [tokensAtOdd_cons (x := x), forall_operand_cons (x := x), hx, and_and_and_comm]
      exact (and_iff_right hodd).symm
    · rename_i hodd
      refine (Accepts.throw _).congr (iff_of_false id fun ⟨h, _⟩ => hodd ?_)
      rw [List.length_cons] at h
      omega

/-- From an odd position on, operators and operands take turns. -/
theorem lowerChain_accepts (left : Sql.Expr) (position : Nat) (hodd : position % 2 = 1)
    (items : List Item) (heven : items.length % 2 = 0) :
    (lowerChain left position items).Accepts
      (TokensAtOdd position items ∧ ∀ e, .expr e ∈ items → e.WellFormed) := by
  match items with
  | [] => exact (Accepts.pure _).congr (by simp [tokensAtOdd_nil])
  | [_] => simp at heven
  | op :: x :: rest =>
    have hrest (op : Sql.Operator) (right : Sql.Expr) :=
      lowerChain_accepts (.binary op left right) (position + 2) (by omega) rest
        (by simp at heven; omega)
    refine ((Accepts.lift (op.operatorAt_ok position)).bind fun op =>
      x.lower_accepts.bind fun right => hrest op right).congr ?_
    have hnext : (position + 1) % 2 ≠ 1 := by omega
    rw [tokensAtOdd_cons, tokensAtOdd_cons, forall_operand_cons, forall_operand_cons]
    cases op with
    | token t =>
      simp only [Item.isToken, hodd, hnext, iff_self, iff_false, true_and, reduceCtorEq,
        false_implies, implies_true]
      exact and_and_and_comm
    | expr e => simp [Item.isToken, hodd]

theorem Select.lower_accepts (s : Select) (label : Option String) :
    (s.lower label).Accepts s.WellFormed := by
  rw [Select.wellFormed_iff]
  obtain ⟨source, columns, filter, groupBy, having, orderBy, limit, distinct⟩ := s
  exact (lowerColumnList_accepts columns).bind fun _ => (lowerSource_accepts source).bind fun _ =>
    (lowerOption_accepts filter).bind fun _ => (lowerExprList_accepts groupBy).bind fun _ =>
    (lowerOption_accepts having).bind fun _ => (lowerOrderList_accepts orderBy).bind fun _ =>
    (lowerLimit_accepts limit).bind_pure _

theorem lowerColumnList_accepts (o : Option (List Column)) :
    (lowerColumnList o).Accepts (∀ cs ∈ o, ∀ c ∈ cs, c.WellFormed) := by
  match o with
  | none => exact (Accepts.pure _).congr (by simp)
  | some [] => exact (Accepts.pure _).congr (by simp)
  | some (c :: cs) => exact (lowerColumns_accepts (c :: cs)).congr (by simp)

theorem lowerSource_accepts (o : Option Source) :
    (lowerSource o).Accepts (∃ x, o = some x ∧ x.WellFormed) := by
  cases o with
  | none => exact (Accepts.throw _).congr (by simp)
  | some source => exact source.lower_accepts.congr (by simp)

theorem lowerExprList_accepts (o : Option (List Expr)) :
    (lowerExprList o).Accepts (∀ es ∈ o, ∀ e ∈ es, e.WellFormed) := by
  cases o with
  | none => exact (Accepts.pure _).congr (by simp)
  | some es => exact (lowerExprs_accepts es).congr (by simp)

theorem lowerOrderList_accepts (o : Option (List Order)) :
    (lowerOrderList o).Accepts (∀ os ∈ o, ∀ x ∈ os, x.expr.WellFormed) := by
  cases o with
  | none => exact (Accepts.pure _).congr (by simp)
  | some orders => exact (lowerOrders_accepts orders).congr (by simp)

theorem lowerLimit_accepts (o : Option Limit) :
    (lowerLimit o).Accepts (∀ l ∈ o, l.rows.WellFormed ∧ ∀ e ∈ l.offset, e.WellFormed) := by
  match o with
  | none => exact (Accepts.pure _).congr (by simp)
  | some ⟨rows, offset⟩ =>
    have hlimit := rows.lower_accepts.bind fun x =>
      (lowerOption_accepts offset).bind_pure (Sql.Limit.mk x)
    exact (hlimit.bind_pure some).congr (by simp)

theorem Column.lower_accepts (c : Column) : c.lower.Accepts c.WellFormed := by
  cases c with
  | wildcard star => exact (Accepts.pure _).congr (iff_of_true trivial (.wildcard star))
  | other => exact (Accepts.pure _).congr (iff_of_true trivial .other)
  | ref r => exact (r.lower_accepts.bind_pure _).congr Column.wellFormed_ref.symm
  | call c => exact (c.lower_accepts.bind_pure _).congr Column.wellFormed_call.symm

theorem lowerColumns_accepts (cs : List Column) :
    (lowerColumns cs).Accepts (∀ c ∈ cs, c.WellFormed) := by
  cases cs with
  | nil => exact (Accepts.pure _).congr (by simp)
  | cons c cs =>
    exact (c.lower_accepts.bind fun _ => (lowerColumns_accepts cs).bind_pure _).congr (by simp)

theorem Source.lower_accepts (s : Source) : s.lower.Accepts s.WellFormed := by
  cases s with
  | ref r => exact ((Accepts.lift r.toTable_ok).bind_pure _).congr Source.wellFormed_ref.symm
  | select s label =>
    exact ((s.lower_accepts label).bind_pure _).congr Source.wellFormed_select.symm
  | join j => exact j.lower_accepts.congr Source.wellFormed_join.symm
  | other => exact (Accepts.throw _).congr (iff_of_false id nofun)

theorem Join.lower_accepts (j : Join) :
    j.lower.Accepts (∃ left right, j.args = [left, right] ∧ left.WellFormed ∧ right.WellFormed ∧
      ∀ e ∈ j.on, e.WellFormed) := by
  match j with
  | ⟨kind, [left, right], on, label⟩ =>
    exact (left.lower_accepts.bind fun _ => right.lower_accepts.bind fun _ =>
      (lowerOption_accepts on).bind_pure _).congr (by simp [and_assoc])
  | ⟨_, [], _, _⟩ => exact (Accepts.throw _).congr (by simp)
  | ⟨_, [_], _, _⟩ => exact (Accepts.throw _).congr (by simp)
  | ⟨_, _ :: _ :: _ :: _, _, _⟩ => exact (Accepts.throw _).congr (by simp)

theorem Order.lower_accepts (o : Order) : o.lower.Accepts o.expr.WellFormed := by
  obtain ⟨e, direction, nulls⟩ := o
  exact e.lower_accepts.bind_pure _

theorem lowerOrders_accepts (os : List Order) :
    (lowerOrders os).Accepts (∀ o ∈ os, o.expr.WellFormed) := by
  cases os with
  | nil => exact (Accepts.pure _).congr (by simp)
  | cons o os =>
    exact (o.lower_accepts.bind fun _ => (lowerOrders_accepts os).bind_pure _).congr (by simp)

end

end Trees

section Payloads

theorem Json.scalar?_eq_none_iff (v : Json) : v.scalar? = none ↔ v.isNested := by
  cases v <;> simp [Json.scalar?, Json.node, Node.scalar?, Json.isNested]

theorem Entry.scalars_eq_nil_iff (e : Entry) :
    Entry.scalars e = [] ↔ ∀ field ∈ e, field.2.isNested := by
  simp [Entry.scalars, List.filterMap_eq_nil_iff, Json.scalar?_eq_none_iff]

theorem Entry.nested_eq_nil_iff (e : Entry) :
    Entry.nested e = [] ↔ ∀ field ∈ e, ¬ field.2.isNested := by
  simp [Entry.nested, List.filterMap_eq_nil_iff, ← Json.scalar?_eq_none_iff]

theorem Payload.checkRows_ok (rows : Option (List (List α))) :
    (∃ u, checkRows rows = .ok u) ↔ ∀ rs ∈ rows, ∀ row ∈ rs, row ≠ [] := by
  have hnone : (∃ u, checkRows rows = .ok u) ↔ (rows.getD []).findIdx? List.isEmpty = none := by
    unfold checkRows
    split
    · rename_i h
      exact iff_of_false (fun ⟨_, h⟩ => Outcome.throw_ne_ok h) (by simp [h])
    · rename_i h
      exact iff_of_true ⟨_, rfl⟩ h
  rw [hnone, List.findIdx?_eq_none_iff]
  cases rows <;> simp

theorem Payload.toInsert_ok (into : Sql.Ref) (p : Payload) :
    (∃ x, p.toInsert into = .ok x) ↔
      (∀ es ∈ p.entries, ∀ e ∈ es, ∃ field ∈ e, ¬ field.2.isNested) ∧
      (∀ rows ∈ p.values, ∀ row ∈ rows, row ≠ []) ∧ ∀ rows ∈ p.rows, ∀ row ∈ rows, row ≠ [] := by
  have hentries : (∀ es ∈ p.entries, ∀ e ∈ es, ∃ field ∈ e, ¬ field.2.isNested) ↔
      ∀ rs ∈ p.entries.map (·.map Entry.scalars), ∀ row ∈ rs, row ≠ [] := by
    cases p.entries <;> simp [Entry.scalars_eq_nil_iff]
  have hcells (o : Option (List (List Cell))) : (∀ rows ∈ o, ∀ row ∈ rows, row ≠ []) ↔
      ∀ rs ∈ o.map (·.map (·.map Cell.value)), ∀ row ∈ rs, row ≠ [] := by
    cases o <;> simp
  rw [hentries, hcells p.values, hcells p.rows, ← checkRows_ok, ← checkRows_ok, ← checkRows_ok]
  simp only [toInsert, assemble, Outcome.bind_eq_ok, Outcome.pure_eq_ok]
  constructor
  · rintro ⟨_, a, ha, b, hb, c, hc, -⟩
    exact ⟨⟨a, ha⟩, ⟨b, hb⟩, c, hc⟩
  · rintro ⟨⟨a, ha⟩, ⟨b, hb⟩, c, hc⟩
    exact ⟨_, a, ha, b, hb, c, hc, rfl⟩

theorem Payload.nestedFields_eq_nil_iff (p : Payload) :
    p.nestedFields = [] ↔ ∀ es ∈ p.entries, ∀ e ∈ es, ∀ field ∈ e, ¬ field.2.isNested := by
  cases h : p.entries <;> simp [nestedFields, h, Entry.nested_eq_nil_iff]

theorem Payload.lower_ok (policy : NestedPolicy) (into : Sql.Ref) (p : Payload) :
    (∃ x, (p.lower policy into).outcome = .ok x) ↔ p.WellFormed policy := by
  have hwf : p.WellFormed policy ↔
      (∃ x, p.toInsert into = .ok x) ∧ (policy = .reject → p.nestedFields = []) := by
    rw [toInsert_ok, nestedFields_eq_nil_iff]
    exact ⟨fun ⟨a, b, c, d⟩ => ⟨⟨a, b, c⟩, d⟩, fun ⟨⟨a, b, c⟩, d⟩ => ⟨a, b, c, d⟩⟩
  simp only [hwf, lower_eq, Lowered.meeting_eq_ok, exists_and_right]

theorem Payload.lowerInto_ok (policy : NestedPolicy) (statement : Keyword) (target : Option Ref)
    (p : Payload) : (∃ x, (p.lowerInto policy statement target).outcome = .ok x) ↔
      TargetWellFormed target ∧ p.WellFormed policy := by
  cases target with
  | none => simp [lowerInto, Lowered.of, TargetWellFormed]
  | some r =>
    have htarget : TargetWellFormed (some r) ↔ ∃ t, r.toTable = .ok t := by
      simp [TargetWellFormed, r.toTable_ok]
    rw [htarget, lowerInto]
    split
    · rename_i h
      simp [h, Lowered.of]
    · rename_i into h
      simp [h, lower_ok]

end Payloads

section Statements

open Lowering (Accepts)

theorem lowerAssignments_accepts (as : List (String × Expr)) :
    (lowerAssignments as).Accepts (∀ a ∈ as, a.2.WellFormed) := by
  induction as with
  | nil => exact (Accepts.pure _).congr (by simp)
  | cons a as ih => exact (a.2.lower_accepts.bind fun _ => ih.bind_pure _).congr (by simp)

theorem Update.lower_accepts (u : Update) : u.lower.Accepts
    (TargetWellFormed u.target ∧ (∀ as ∈ u.assignments, ∀ a ∈ as, a.2.WellFormed) ∧
      ∀ e ∈ u.filter, e.WellFormed) := by
  obtain ⟨target, assignments, filter⟩ := u
  cases target with
  | none => exact (Accepts.throw _).congr (by simp [TargetWellFormed])
  | some r =>
    refine ((lowerAssignments_accepts _).bind fun _ => (Accepts.lift r.toTable_ok).bind fun _ =>
      (lowerOption_accepts filter).bind_pure _).congr ?_
    cases assignments <;> simp [TargetWellFormed, and_left_comm]

theorem Delete.lower_accepts (d : Delete) :
    d.lower.Accepts (TargetWellFormed d.target ∧ ∀ e ∈ d.filter, e.WellFormed) := by
  obtain ⟨target, filter⟩ := d
  cases target with
  | none => exact (Accepts.throw _).congr (by simp [TargetWellFormed])
  | some r =>
    exact ((Accepts.lift r.toTable_ok).bind fun _ => (lowerOption_accepts filter).bind_pure _).congr
      (by simp [TargetWellFormed])

theorem Statement.lower_ok (policy : NestedPolicy) (n : Nat) (s : Statement) :
    (∃ r, (s.lower policy n).outcome = .ok r) ↔ s.WellFormed policy := by
  cases s with
  | select s => exact (s.lower_accepts none).map _ n
  | insert i => exact Outcome.exists_map_eq_ok.trans (Payload.lowerInto_ok ..)
  | update u => exact u.lower_accepts.map _ n
  | delete d => exact d.lower_accepts.map _ n
  | upsert u => exact Outcome.exists_map_eq_ok.trans (Payload.lowerInto_ok ..)

end Statements

/-- A query is lowered exactly if it has a statement and the first one is well formed. -/
theorem Query.lower_ok_iff (policy : NestedPolicy) (n : Nat) (q : Query) :
    (∃ r, (q.lower policy n).outcome = .ok r) ↔
      ∃ s, q.statement? = some s ∧ s.WellFormed policy := by
  unfold Query.lower
  split
  · rename_i s h
    rw [Statement.lower_ok, h]
    simp
  · rename_i h
    simp [h, Lowered.of]

end QueryNotation
