import QueryNotation.Compiler
import QueryNotation.Proofs.Features
import QueryNotation.Proofs.SharedTexts
import QueryNotation.Proofs.Subtrees
import QueryNotation.Proofs.Success

/-! The types and functions that a query asks its dialect for. Lowering adds none of its own, so
dialects that agree on those of a query compile it alike. -/

namespace QueryNotation

open Occurrence

/-- Whether a part is looked up in a table of the dialect. -/
def Sql.Part.isLookup : Part → Bool
  | .function _ => true
  | .type _ => true
  | _ => false

theorem Sql.Part.imp_of_not_lookup {P : Part → Prop} {p : Part} (h : p.isLookup = false) :
    p.isLookup → P p := by
  simp [h]

theorem Sql.Part.shared_of_isLookup {d d' : Dialect} {p : Part}
    (h : p.isLookup → p.Shared d d') : p.Shared d d' := by
  cases p with
  | function called => exact h rfl
  | type declared => exact h rfl
  | _ => exact trivial

/-- All functions and types that the text of a tree with these parts shows are as `P` says. -/
abbrev WrittenLookups (P : Sql.Part → Prop) (l : List (Occurrence Sql.Part)) : Prop :=
  AllWritten (fun p => p.isLookup → P p) l

def Ref.lookups (r : Ref) : List Sql.Part := r.cast.toList.map .type

def Call.lookups (c : Call) : List Sql.Part := .function c.name :: c.cast.toList.map .type

namespace Subtree

/-- The function and the type that stand at the root of a part. The type of a source is not among
them, since a table is written without one. -/
def lookups : Subtree → List Sql.Part
  | .expr (.ref r) => r.lookups
  | .expr (.call c) => c.lookups
  | .column (.ref r) => r.lookups
  | .column (.call c) => c.lookups
  | _ => []

/-- All functions and types of these parts are as `P` says. -/
def AllLookups (P : Sql.Part → Prop) (ts : List Subtree) : Prop := ∀ p ∈ ts.flatMap lookups, P p

variable {P : Sql.Part → Prop} {t : Subtree} {ts us : List Subtree}

theorem allLookups_cons : AllLookups P (t :: ts) ↔ (∀ p ∈ t.lookups, P p) ∧ AllLookups P ts :=
  List.forall_mem_append

theorem allLookups_append : AllLookups P (ts ++ us) ↔ AllLookups P ts ∧ AllLookups P us := by
  rw [AllLookups, List.flatMap_append]
  exact List.forall_mem_append

theorem AllLookups.mono (h : AllLookups P us) (hts : ts ⊆ us) : AllLookups P ts := by
  intro p hp
  obtain ⟨t, ht, hp⟩ := List.mem_flatMap.mp hp
  exact h p (List.mem_flatMap.mpr ⟨t, hts ht, hp⟩)

end Subtree

/-- The functions and types that a query asks its dialect for. -/
def Query.lookups (q : Query) : List Sql.Part := q.subtrees.flatMap Subtree.lookups

open Subtree (AllLookups allLookups_append allLookups_cons)
open Lowering (Yields)

section Parts

variable {P : Sql.Part → Prop}

theorem Sql.Expr.allWritten_castTo {e : Expr} {cast : Option String} (h : WrittenLookups P e.parts)
    (hcast : ∀ p ∈ cast.toList.map Part.type, P p) : WrittenLookups P (e.castTo cast).parts := by
  cases cast with
  | none => exact h
  | some declared =>
    have htype : P (.type declared) := hcast _ (by simp)
    exact allWritten_append.mpr ⟨h, allWritten_shown.mpr ⟨fun _ => htype, allWritten_nil⟩⟩

theorem Sql.allWritten_names (names : List String) :
    WrittenLookups P (names.map fun s => .shown (.name s)) := by
  intro p hp
  rw [writtenValues_map_shown] at hp
  obtain ⟨s, -, rfl⟩ := List.mem_map.mp hp
  exact Part.imp_of_not_lookup rfl

theorem Sql.allWritten_pathParts (path : List String) : WrittenLookups P (pathParts path) :=
  allWritten_names _

theorem Sql.allWritten_labelParts (label : Option String) :
    WrittenLookups P (labelParts label) := by
  cases label with
  | none => exact allWritten_nil
  | some s => exact allWritten_names [s]

theorem Sql.Ref.allWritten_parts (r : Ref) : WrittenLookups P r.parts :=
  allWritten_append.mpr ⟨allWritten_pathParts r.path, allWritten_labelParts r.label⟩

theorem Sql.allWritten_scalarParts (v : Scalar) : WrittenLookups P (scalarParts v) := by
  cases v with
  | text s => exact allWritten_shown.mpr ⟨Part.imp_of_not_lookup rfl, allWritten_nil⟩
  | _ => exact allWritten_nil

theorem Sql.Insert.allWritten_parts (i : Insert) : WrittenLookups P i.parts := by
  refine allWritten_append.mpr
    ⟨allWritten_append.mpr ⟨i.into.allWritten_parts, allWritten_names _⟩, ?_⟩
  exact allWritten_flatMap fun row _ => allWritten_flatMap fun v _ => allWritten_scalarParts v

end Parts

section Lowering

variable {P : Sql.Part → Prop}

theorem Ref.lower_lookups {r : Ref} (h : ∀ p ∈ r.lookups, P p) :
    r.lower.Yields fun x => WrittenLookups P x.parts := by
  unfold Ref.lower
  split
  · refine (Yields.any _).bind fun i _ => .pure (Sql.Expr.allWritten_castTo ?_ h)
    exact allWritten_shown.mpr ⟨Sql.Part.imp_of_not_lookup rfl, allWritten_nil⟩
  · exact (Yields.any _).bind fun t _ => .pure
      (Sql.Expr.allWritten_castTo (Sql.allWritten_pathParts t.path) h)

-- One theorem for each function of the mutual recursion.
mutual

theorem Expr.lower_lookups {e : Expr} (h : AllLookups P e.subtrees) :
    e.lower.Yields fun x => WrittenLookups P x.parts := by
  cases e with
  | ref r => exact Ref.lower_lookups (allLookups_cons.mp h).1
  | val v => exact .pure (Sql.allWritten_scalarParts v)
  | compound items => exact lowerCompound_lookups (allLookups_cons.mp h).2
  | list items =>
    exact (lowerExprs_lookups (allLookups_cons.mp h).2).bind fun xs hxs => .pure hxs
  | call c =>
    obtain ⟨hroot, hargs⟩ := allLookups_cons.mp h
    exact Call.lower_lookups hroot hargs
  | select s label =>
    exact (Select.lower_lookups label (allLookups_cons.mp h).2).bind fun x hx => .pure hx
  | bareSelect s =>
    exact (Select.lower_lookups none (allLookups_cons.mp h).2).bind fun x hx => .pure hx
  | other => exact .throw _

theorem lowerExprs_lookups {es : List Expr} (h : AllLookups P (exprSubtrees es)) :
    (lowerExprs es).Yields fun xs => WrittenLookups P (Sql.exprParts xs) := by
  cases es with
  | nil => exact .pure allWritten_nil
  | cons e es =>
    obtain ⟨he, hes⟩ := allLookups_append.mp h
    exact (Expr.lower_lookups he).bind fun x hx => (lowerExprs_lookups hes).bind fun xs hxs =>
      .pure (allWritten_append.mpr ⟨hx, hxs⟩)

theorem lowerOption_lookups {o : Option Expr} (h : AllLookups P (optionSubtrees o)) :
    (lowerOption o).Yields fun y => WrittenLookups P (Sql.optionParts y) := by
  cases o with
  | none => exact .pure allWritten_nil
  | some e => exact (Expr.lower_lookups (e := e) h).bind fun x hx => .pure hx

theorem Call.lower_lookups {c : Call} (hroot : ∀ p ∈ c.lookups, P p)
    (hargs : AllLookups P c.subtrees) : c.lower.Yields fun x => WrittenLookups P x.parts := by
  obtain ⟨name, args, label, cast⟩ := c
  obtain ⟨hname, hcast⟩ := List.forall_mem_cons.mp hroot
  exact (lowerExprs_lookups hargs).bind fun xs hxs => .pure
    (Sql.Expr.allWritten_castTo (allWritten_shown.mpr ⟨fun _ => hname, hxs⟩) hcast)

theorem Item.lower_lookups {i : Item} (h : AllLookups P i.subtrees) :
    i.lower.Yields fun x => WrittenLookups P x.parts := by
  cases i with
  | token t => exact .throw _
  | expr e =>
    refine (Expr.lower_lookups (e := e) h).bind fun x hx => .pure ?_
    split <;> exact hx

theorem lowerCompound_lookups {items : List Item} (h : AllLookups P (itemSubtrees items)) :
    (lowerCompound items).Yields fun x => WrittenLookups P x.parts := by
  match items with
  | [] => exact .throw _
  | [i] => exact Item.lower_lookups (allLookups_append.mp h).1
  | [negation, i] =>
    have hi := (allLookups_append.mp (allLookups_append.mp h).2).1
    rw [lowerCompound]
    split
    · exact (Item.lower_lookups hi).bind fun x hx => .pure hx
    · exact .throw _
  | i :: op :: j :: rest =>
    obtain ⟨hi, hrest⟩ := allLookups_append.mp h
    simp only [lowerCompound]
    split
    · exact (Item.lower_lookups hi).bind fun x hx => lowerChain_lookups 1 hx hrest
    · exact .throw _

theorem lowerChain_lookups {left : Sql.Expr} (position : Nat) {items : List Item}
    (hleft : WrittenLookups P left.parts) (h : AllLookups P (itemSubtrees items)) :
    (lowerChain left position items).Yields fun x => WrittenLookups P x.parts := by
  match items with
  | [] => exact .pure hleft
  | [_] => exact .pure hleft
  | op :: i :: rest =>
    obtain ⟨hi, hrest⟩ := allLookups_append.mp (allLookups_append.mp h).2
    refine (Yields.any _).bind fun op _ => (Item.lower_lookups hi).bind fun x hx =>
      lowerChain_lookups _ ?_ hrest
    exact allWritten_append.mpr ⟨hleft, allWritten_shown.mpr ⟨Sql.Part.imp_of_not_lookup rfl, hx⟩⟩

theorem Select.lower_lookups {s : Select} (label : Option String) (h : AllLookups P s.subtrees) :
    (s.lower label).Yields fun x => WrittenLookups P x.parts := by
  obtain ⟨source, columns, filter, groupBy, having, orderBy, limit, distinct⟩ := s
  simp only [Select.subtrees, allLookups_append] at h
  obtain ⟨⟨⟨⟨⟨⟨hcolumns, hsource⟩, hfilter⟩, hgroupBy⟩, hhaving⟩, horderBy⟩, hlimit⟩ := h
  refine (lowerColumnList_lookups hcolumns).bind fun _ hcolumns =>
    (lowerSource_lookups hsource).bind fun _ hsource =>
    (lowerOption_lookups hfilter).bind fun _ hfilter =>
    (lowerExprList_lookups hgroupBy).bind fun _ hgroupBy =>
    (lowerOption_lookups hhaving).bind fun _ hhaving =>
    (lowerOrderList_lookups horderBy).bind fun _ horderBy =>
    (lowerLimit_lookups hlimit).bind fun _ hlimit => .pure ?_
  simp only [Sql.Select.parts, allWritten_append]
  exact ⟨⟨⟨⟨⟨⟨hcolumns, hsource⟩, hfilter⟩, hgroupBy⟩, hhaving⟩, horderBy⟩, hlimit⟩

theorem lowerColumnList_lookups {o : Option (List Column)}
    (h : AllLookups P (columnListSubtrees o)) :
    (lowerColumnList o).Yields fun xs => WrittenLookups P (Sql.columnParts xs) := by
  cases o with
  | none => exact .pure allWritten_nil
  | some columns =>
    rw [lowerColumnList]
    split
    · exact .pure allWritten_nil
    · exact lowerColumns_lookups h

theorem lowerSource_lookups {o : Option Source} (h : AllLookups P (sourceSubtrees o)) :
    (lowerSource o).Yields fun x => WrittenLookups P x.parts := by
  cases o with
  | none => exact .throw _
  | some source => exact Source.lower_lookups (s := source) h

theorem lowerExprList_lookups {o : Option (List Expr)} (h : AllLookups P (exprListSubtrees o)) :
    (lowerExprList o).Yields fun xs => WrittenLookups P (Sql.exprParts xs) := by
  cases o with
  | none => exact .pure allWritten_nil
  | some es => exact lowerExprs_lookups h

theorem lowerOrderList_lookups {o : Option (List Order)} (h : AllLookups P (orderListSubtrees o)) :
    (lowerOrderList o).Yields fun xs => WrittenLookups P (Sql.orderParts xs) := by
  cases o with
  | none => exact .pure allWritten_nil
  | some orders => exact lowerOrders_lookups h

theorem lowerLimit_lookups {o : Option Limit} (h : AllLookups P (limitSubtrees o)) :
    (lowerLimit o).Yields fun y => WrittenLookups P (Sql.limitParts y) := by
  match o with
  | none => exact .pure allWritten_nil
  | some ⟨rows, offset⟩ =>
    obtain ⟨hrows, hoffset⟩ := allLookups_append.mp h
    have hlimit : (Limit.lower ⟨rows, offset⟩).Yields fun l =>
        WrittenLookups P (Sql.limitParts (some l)) := by
      refine (Expr.lower_lookups hrows).bind fun x hx =>
        (lowerOption_lookups hoffset).bind fun y hy => .pure ?_
      exact allWritten_append.mpr
        ⟨allWritten_shown.mpr ⟨Sql.Part.imp_of_not_lookup rfl, hx⟩, hy⟩
    exact hlimit.bind fun l hl => .pure hl

theorem Column.lower_lookups {c : Column} (h : AllLookups P c.subtrees) :
    c.lower.Yields fun x => WrittenLookups P x.parts := by
  cases c with
  | wildcard star => exact .pure allWritten_nil
  | other => exact .pure allWritten_nil
  | ref r =>
    exact (Ref.lower_lookups (allLookups_cons.mp h).1).bind fun x hx => .pure
      (allWritten_append.mpr ⟨hx, Sql.allWritten_labelParts r.label⟩)
  | call c =>
    obtain ⟨hroot, hargs⟩ := allLookups_cons.mp h
    exact (Call.lower_lookups hroot hargs).bind fun x hx => .pure
      (allWritten_append.mpr ⟨hx, Sql.allWritten_labelParts c.label⟩)

theorem lowerColumns_lookups {cs : List Column} (h : AllLookups P (columnSubtrees cs)) :
    (lowerColumns cs).Yields fun xs => WrittenLookups P (Sql.columnParts xs) := by
  cases cs with
  | nil => exact .pure allWritten_nil
  | cons c cs =>
    obtain ⟨hc, hcs⟩ := allLookups_append.mp h
    exact (Column.lower_lookups hc).bind fun x hx => (lowerColumns_lookups hcs).bind fun xs hxs =>
      .pure (allWritten_append.mpr ⟨hx, hxs⟩)

theorem Source.lower_lookups {s : Source} (h : AllLookups P s.subtrees) :
    s.lower.Yields fun x => WrittenLookups P x.parts := by
  cases s with
  | ref r => exact (Yields.any _).bind fun t _ => .pure (t.allWritten_parts)
  | select s label =>
    exact (Select.lower_lookups label (allLookups_cons.mp h).2).bind fun x hx => .pure
      (allWritten_append.mpr ⟨hx, Sql.allWritten_labelParts x.label⟩)
  | join j => exact Join.lower_lookups (allLookups_cons.mp h).2
  | other => exact .throw _

theorem Join.lower_lookups {j : Join} (h : AllLookups P j.subtrees) :
    j.lower.Yields fun x => WrittenLookups P x.parts := by
  match j with
  | ⟨kind, [left, right], on, label⟩ =>
    obtain ⟨hargs, hon⟩ := allLookups_append.mp h
    obtain ⟨hleft, hright⟩ := allLookups_append.mp hargs
    refine (Source.lower_lookups hleft).bind fun l hl =>
      (Source.lower_lookups (allLookups_append.mp hright).1).bind fun r hr =>
      (lowerOption_lookups hon).bind fun o ho => .pure ?_
    simp only [Sql.Source.parts, allWritten_append]
    exact ⟨⟨⟨hl, hr⟩, kind.allWritten_condition ho⟩, Sql.allWritten_labelParts label⟩
  | ⟨_, [], _, _⟩ => exact .throw _
  | ⟨_, [_], _, _⟩ => exact .throw _
  | ⟨_, _ :: _ :: _ :: _, _, _⟩ => exact .throw _

theorem Order.lower_lookups {o : Order} (h : AllLookups P o.subtrees) :
    o.lower.Yields fun x => WrittenLookups P x.parts := by
  obtain ⟨e, direction, nulls⟩ := o
  refine (Expr.lower_lookups (e := e) h).bind fun x hx => .pure
    (allWritten_append.mpr ⟨hx, ?_⟩)
  cases nulls with
  | none => exact allWritten_nil
  | some nulls =>
    exact allWritten_shown.mpr ⟨Sql.Part.imp_of_not_lookup rfl, allWritten_nil⟩

theorem lowerOrders_lookups {os : List Order} (h : AllLookups P (orderSubtrees os)) :
    (lowerOrders os).Yields fun xs => WrittenLookups P (Sql.orderParts xs) := by
  cases os with
  | nil => exact .pure allWritten_nil
  | cons o os =>
    obtain ⟨ho, hos⟩ := allLookups_append.mp h
    exact (Order.lower_lookups ho).bind fun x hx => (lowerOrders_lookups hos).bind fun xs hxs =>
      .pure (allWritten_append.mpr ⟨hx, hxs⟩)

end

theorem lowerAssignments_lookups {as : List (String × Expr)}
    (h : AllLookups P (exprSubtrees (as.map Prod.snd))) :
    (lowerAssignments as).Yields fun xs => WrittenLookups P (Sql.assignmentParts xs) := by
  induction as with
  | nil => exact .pure allWritten_nil
  | cons a as ih =>
    obtain ⟨ha, has⟩ := allLookups_append.mp h
    refine (Expr.lower_lookups ha).bind fun x hx => (ih has).bind fun xs hxs => .pure ?_
    exact allWritten_append.mpr
      ⟨allWritten_shown.mpr ⟨Sql.Part.imp_of_not_lookup rfl, hx⟩, hxs⟩

theorem Update.lower_lookups {u : Update} (h : AllLookups P (Statement.update u).subtrees) :
    u.lower.Yields fun x => WrittenLookups P (Sql.Statement.update x).parts := by
  obtain ⟨hassignments, hfilter⟩ := allLookups_append.mp h
  unfold Update.lower
  split
  · exact .throw _
  · exact (lowerAssignments_lookups hassignments).bind fun as has =>
      (Yields.any _).bind fun t _ => (lowerOption_lookups hfilter).bind fun y hy => .pure
      (allWritten_append.mpr ⟨allWritten_append.mpr ⟨t.allWritten_parts, has⟩, hy⟩)

theorem Delete.lower_lookups {d : Delete} (h : AllLookups P (Statement.delete d).subtrees) :
    d.lower.Yields fun x => WrittenLookups P (Sql.Statement.delete x).parts := by
  unfold Delete.lower
  split
  · exact .throw _
  · exact (Yields.any _).bind fun t _ => (lowerOption_lookups h).bind fun y hy => .pure
      (allWritten_append.mpr ⟨t.allWritten_parts, hy⟩)

theorem Statement.lower_lookups {policy : NestedPolicy} {s : Statement} {n n' : Nat}
    {t : Sql.Statement} (hs : AllLookups P s.subtrees)
    (h : (s.lower policy n).outcome = .ok (t, n')) : WrittenLookups P t.parts := by
  cases s with
  | select s =>
    obtain ⟨x, hx, rfl⟩ := Lowering.map_eq_ok.mp h
    exact Select.lower_lookups none hs n x n' hx
  | insert i =>
    obtain ⟨x, -, ⟨⟩⟩ := Outcome.map_eq_ok.mp h
    exact x.allWritten_parts
  | update u =>
    obtain ⟨x, hx, rfl⟩ := Lowering.map_eq_ok.mp h
    exact Update.lower_lookups hs n x n' hx
  | delete d =>
    obtain ⟨x, hx, rfl⟩ := Lowering.map_eq_ok.mp h
    exact Delete.lower_lookups hs n x n' hx
  | upsert u =>
    obtain ⟨x, -, ⟨⟩⟩ := Outcome.map_eq_ok.mp h
    exact x.allWritten_parts

/-- What holds of all functions and types of a query holds of those in the text of its tree. -/
theorem Query.allWritten_of_lower {policy : NestedPolicy} {q : Query} {n n' : Nat}
    {t : Sql.Statement} (hq : ∀ p ∈ q.lookups, P p)
    (h : (q.lower policy n).outcome = .ok (t, n')) : WrittenLookups P t.parts := by
  unfold Query.lower at h
  split at h
  · rename_i s hs
    have hmem : s ∈ q.statements := List.mem_of_mem_head? hs
    have hsub : s.subtrees ⊆ q.subtrees := fun t ht => List.mem_flatMap.mpr ⟨s, hmem, ht⟩
    exact Statement.lower_lookups (AllLookups.mono hq hsub) h
  · cases h

end Lowering

/-- Dialects that differ only in types and functions compile a query alike, if they agree on its
types and functions. -/
theorem Compiler.compileQuery_congr {d d' : Dialect} (hd : d.Kin d') {q : Query}
    (hq : ∀ p ∈ q.lookups, p.Shared d d') (policy : NestedPolicy) :
    (compileQuery ⟨d', policy⟩ q).result = (compileQuery ⟨d, policy⟩ q).result := by
  unfold compileQuery
  split
  · rfl
  · unfold compileValid
    cases hlower : (q.lower policy 0).outcome with
    | error e => simp only [hlower, failed]
    | ok lowered =>
      obtain ⟨t, n⟩ := lowered
      have ht : AllWritten (Sql.Part.Shared d d') t.parts := fun p hp =>
        Sql.Part.shared_of_isLookup (Query.allWritten_of_lower hq hlower p hp)
      simp only [hlower, Dialect.generate_congr hd ht]
      split <;> rfl

namespace Dialect

/-- PostgreSQL and standard SQL have the same text for a tree whose text shows only common types and
functions, and the same result for a query that asks for only such ones. -/
theorem postgres_agrees_with_ansi :
    (∀ t : Sql.Statement, (∀ p ∈ t.writtenParts, p.IsCommon) →
      ∃ sql, postgres.generate t = .ok sql ∧ ansi.generate t = .ok sql) ∧
    ∀ (policy : NestedPolicy) (q : Query), (∀ p ∈ q.lookups, p.IsCommon) →
      (Compiler.compileQuery ⟨postgres, policy⟩ q).result =
        (Compiler.compileQuery ⟨ansi, policy⟩ q).result := by
  constructor
  · intro t ht
    have heq : postgres.generate t = ansi.generate t :=
      generate_congr kin_postgres fun p hp => Sql.Part.shared_ansi_postgres_iff.mpr (ht p hp)
    obtain ⟨sql, hsql⟩ := exists_generate (d := ansi) rfl rfl t
    exact ⟨sql, heq.trans hsql, hsql⟩
  · intro policy q hq
    exact Compiler.compileQuery_congr kin_postgres
      (fun p hp => Sql.Part.shared_ansi_postgres_iff.mpr (hq p hp)) policy

end Dialect

/-- A select whose only type that is not common stands in the condition of a cross join. -/
def crossJoinOnType : Sql.Statement := .select {
  columns := [.expr (.cast (.call "uPPer" [.ref ⟨["a"], none⟩] none) "cds.String") (some "b")]
  source := .join .cross (.table ⟨["A"], none⟩) (.table ⟨["B"], none⟩)
    (some (.cast (.param 1) "cds.UUID")) none
  filter := none
  groupBy := []
  having := none
  orderBy := []
  limit := none
  distinct := false
  label := none }

/-- A select with a type that no dialect knows, and with one on its table that is never written. -/
def selectFromTyped : Query where
  select := some {
    source := some (.ref ⟨["A"], none, some "cds.UUID", false⟩)
    columns := some [.ref ⟨["a"], none, some "my.Type", false⟩]
    filter := some (.compound [
      .expr (.call ⟨"frob", [.ref ⟨["b"], none, none, false⟩], none, none⟩),
      .token "=", .expr (.ref ⟨["?"], none, some "cds.Integer", false⟩)])
    groupBy := none
    having := none
    orderBy := none
    limit := none
    distinct := false }
  insert := none
  update := none
  delete := none
  upsert := none
  others := []

theorem crossJoinOnType_selectFromTyped_agree :
    Dialect.postgres.generate crossJoinOnType = .ok
      "SELECT CAST(UPPER(\"a\") AS VARCHAR(5000)) AS \"b\"\nFROM \"A\" CROSS JOIN \"B\"" ∧
    (Compiler.compileQuery ⟨Dialect.postgres, .skip⟩ selectFromTyped).result = .ok
      ⟨"SELECT CAST(\"a\" AS VARCHAR(5000))\nFROM \"A\"\nWHERE frob(\"b\") = CAST($1 AS INTEGER)",
        1⟩ := by
  have hparts : crossJoinOnType.writtenParts = [.function "uPPer", .name "a", .type "cds.String",
    .name "b", .name "A", .name "B"] := rfl
  have hlookups : selectFromTyped.lookups = [.type "my.Type", .function "frob",
    .type "cds.Integer"] := rfl
  have hupper : Dialect.standardFunction "uPPer" = "UPPER" := by decide
  have hfrob : Dialect.standardFunction "frob" = "frob" := by decide
  constructor
  · obtain ⟨sql, hpostgres, hansi⟩ := Dialect.postgres_agrees_with_ansi.1 crossJoinOnType
      (by simp [hparts, Sql.Part.IsCommon, Dialect.divergentTypes, hupper])
    rw [hpostgres, ← hansi]
    rfl
  · rw [Dialect.postgres_agrees_with_ansi.2 .skip selectFromTyped
      (by simp [hlookups, Sql.Part.IsCommon, Dialect.divergentTypes, hfrob])]
    rfl

end QueryNotation
