import QueryNotation.Dialect.Builtin
import QueryNotation.Proofs.Parts
import QueryNotation.Proofs.Success
import QueryNotation.Sql.Print

/-! What a dialect cannot write. A tree has no text exactly if one of the parts that its text would
show is a place for nulls or a limit, and the dialect does not have it. What printing reports is the
first such part in the order of writing, so a dialect that has both prints every tree. -/

namespace QueryNotation

/-- What a part asks for and the dialect does not have. -/
def Dialect.missing? (d : Dialect) : Sql.Part → Option Sql.Feature
  | .nulls => if d.supportsNullsOrder then none else some .nullsOrder
  | .limit => if d.supportsLimit then none else some .limit
  | _ => none

namespace Sql

open Occurrence

/-- A computation that writes these parts: it fails exactly if the dialect misses something for one
of them, and then for the first. -/
def Reports (d : Dialect) (parts : List Part) (x : Except PrintError α) : Prop :=
  match parts.findSome? d.missing? with
  | some feature => x = .error (.unsupported d.name feature)
  | none => ∃ a, x = .ok a

section Rules

variable {d : Dialect} {a b : List Part} {x : Except PrintError α}

theorem Reports.pure (v : α) : Reports d [] (pure v) := ⟨v, rfl⟩

theorem Reports.bind {k : α → Except PrintError β} (hx : Reports d a x)
    (hk : ∀ v, Reports d b (k v)) : Reports d (a ++ b) (x >>= k) := by
  unfold Reports at hx ⊢
  rw [List.findSome?_append]
  cases hfirst : a.findSome? d.missing? with
  | some feature =>
    rw [hfirst] at hx
    rw [hx]
    rfl
  | none =>
    rw [hfirst] at hx
    obtain ⟨v, rfl⟩ := hx
    exact hk v

/-- What is made of a result at the end cannot fail. -/
theorem Reports.map (hx : Reports d a x) (f : α → β) :
    Reports d a (x >>= fun v => Pure.pure (f v)) := by
  have h := hx.bind fun v => Reports.pure (f v)
  rwa [List.append_nil] at h

/-- Parts that every dialect has may be added. -/
theorem Reports.append_known (hx : Reports d a x) (hb : b.findSome? d.missing? = none) :
    Reports d (a ++ b) x := by
  unfold Reports at hx ⊢
  rwa [List.findSome?_append, hb, Option.or_none]

theorem Reports.known_append (ha : a.findSome? d.missing? = none) (hx : Reports d b x) :
    Reports d (a ++ b) x := by
  unfold Reports at hx ⊢
  rwa [List.findSome?_append, ha, Option.none_or]

theorem Reports.cons_known {p : Part} (hp : d.missing? p = none) (hx : Reports d b x) :
    Reports d (p :: b) x := by
  apply Reports.known_append (a := [p]) _ hx
  rw [List.findSome?_cons, hp]
  rfl

theorem Reports.known (ha : a.findSome? d.missing? = none) (v : α) :
    Reports d a (Pure.pure v) := by
  have h := (Reports.pure (d := d) v).append_known ha
  rwa [List.nil_append] at h

end Rules

section Known

variable (d : Dialect)

theorem missing?_names (names : List String) :
    (names.map Part.name).findSome? d.missing? = none := by
  rw [List.findSome?_eq_none_iff]
  intro p hp
  obtain ⟨s, -, rfl⟩ := List.mem_map.mp hp
  rfl

theorem missing?_pathParts (path : List String) :
    (writtenValues (pathParts path)).findSome? d.missing? = none := by
  rw [pathParts, writtenValues_map_shown]
  exact missing?_names d _

theorem missing?_labelParts (label : Option String) :
    (writtenValues (labelParts label)).findSome? d.missing? = none := by
  cases label <;> rfl

theorem missing?_tableParts (r : Ref) :
    (writtenValues r.parts).findSome? d.missing? = none := by
  rw [Ref.parts, writtenValues_append, List.findSome?_append, missing?_pathParts,
    missing?_labelParts]
  rfl

theorem missing?_scalarParts (v : Scalar) :
    (writtenValues (scalarParts v)).findSome? d.missing? = none := by
  cases v <;> rfl

theorem missing?_cells (row : List Scalar) :
    (writtenValues (row.flatMap scalarParts)).findSome? d.missing? = none := by
  induction row with
  | nil => rfl
  | cons v row ih =>
    rw [List.flatMap_cons, writtenValues_append, List.findSome?_append, missing?_scalarParts, ih]
    rfl

theorem missing?_rows (rows : List (List Scalar)) :
    (writtenValues (rows.flatMap (·.flatMap scalarParts))).findSome? d.missing? = none := by
  induction rows with
  | nil => rfl
  | cons row rows ih =>
    rw [List.flatMap_cons, writtenValues_append, List.findSome?_append, missing?_cells, ih]
    rfl

theorem missing?_insertParts (i : Insert) :
    (writtenValues i.parts).findSome? d.missing? = none := by
  rw [Insert.parts, writtenValues_append, writtenValues_append, writtenValues_map_shown,
    List.findSome?_append, List.findSome?_append, missing?_tableParts, missing?_names,
    missing?_rows]
  rfl

end Known

section Trees

variable {d : Dialect}

theorem printNulls_reports (item : List Piece) (nulls : Option NullsOrder) :
    Reports d (writtenValues (nulls.map fun _ => Occurrence.shown .nulls).toList)
      (printNulls d item nulls) := by
  cases nulls with
  | none => exact .pure item
  | some place =>
    rw [printNulls]
    by_cases h : d.supportsNullsOrder
    · rw [if_pos h]
      apply Reports.known
      simp [Dialect.missing?, h]
    · rw [if_neg h]
      simp only [Option.map_some, Option.toList_some, writtenValues_shown, writtenValues_nil,
        Reports, List.findSome?_cons, Dialect.missing?, if_neg h]
      rfl

mutual

/-- Printing an expression reports on the parts that its text shows. -/
theorem Expr.print_reports (e : Expr) : Reports d (writtenValues e.parts) (e.print d) := by
  cases e with
  | ref r => exact .known (missing?_pathParts d r.path) _
  | literal v => exact .known (missing?_scalarParts d v) _
  | binary op left right =>
    rw [Expr.print, Expr.parts, writtenValues_append, writtenValues_shown]
    apply left.print_reports.bind
    intro l
    exact .cons_known rfl (right.print_reports.map _)
  | not operand => exact operand.print_reports.map _
  | group inner => exact inner.print_reports.map _
  | call name args label => exact .cons_known rfl ((printExprs_reports args).map _)
  | list items => exact (printExprs_reports items).map _
  | param index => exact .cons_known rfl (.pure _)
  | subquery s => exact s.print_reports.map _
  | cast operand type =>
    rw [Expr.print, Expr.parts, writtenValues_append]
    exact (operand.print_reports.map _).append_known rfl

theorem printExprs_reports (es : List Expr) :
    Reports d (writtenValues (exprParts es)) (printExprs d es) := by
  cases es with
  | nil => exact .pure _
  | cons e es =>
    rw [printExprs, exprParts, writtenValues_append]
    apply e.print_reports.bind
    intro x
    exact (printExprs_reports es).map _

theorem printOption_reports (o : Option Expr) :
    Reports d (writtenValues (optionParts o)) (printOption d o) := by
  cases o with
  | none => exact .pure _
  | some e => exact e.print_reports.map _

theorem Select.print_reports (s : Select) : Reports d (writtenValues s.parts) (s.print d) := by
  obtain ⟨columns, source, filter, groupBy, having, orderBy, limit, distinct, label⟩ := s
  rw [Select.print, Select.parts]
  simp only [writtenValues_append, List.append_assoc]
  apply (printColumns_reports columns).bind
  intro _
  apply source.print_reports.bind
  intro _
  apply (printOption_reports filter).bind
  intro _
  apply (printExprs_reports groupBy).bind
  intro _
  apply (printOption_reports having).bind
  intro _
  apply (printOrders_reports orderBy).bind
  intro _
  exact (printLimit_reports limit).map _

theorem Column.print_reports (c : Column) : Reports d (writtenValues c.parts) (c.print d) := by
  cases c with
  | wildcard => exact .pure _
  | expr e label =>
    rw [Column.print, Column.parts, writtenValues_append]
    exact (e.print_reports.map _).append_known (missing?_labelParts d label)

theorem printColumns_reports (cs : List Column) :
    Reports d (writtenValues (columnParts cs)) (printColumns d cs) := by
  cases cs with
  | nil => exact .pure _
  | cons c cs =>
    rw [printColumns, columnParts, writtenValues_append]
    apply c.print_reports.bind
    intro x
    exact (printColumns_reports cs).map _

/-- The condition of a cross join is not printed, so nothing in it can fail. -/
theorem printOn_reports (kind : JoinKind) (o : Option Expr) :
    Reports d (writtenValues (kind.condition (optionParts o))) (printOn d kind o) := by
  by_cases hkind : kind = .cross
  · rw [JoinKind.condition, if_pos hkind, writtenValues_map_hide]
    cases o with
    | none => exact .pure _
    | some e =>
      rw [printOn, if_pos hkind]
      exact .pure _
  · rw [JoinKind.condition, if_neg hkind]
    cases o with
    | none => exact .pure _
    | some e =>
      rw [printOn, if_neg hkind]
      exact e.print_reports.map _

theorem Source.print_reports (s : Source) : Reports d (writtenValues s.parts) (s.print d) := by
  cases s with
  | table r => exact .known (missing?_tableParts d r) _
  | subquery s =>
    rw [Source.print, Source.parts, writtenValues_append]
    exact (s.print_reports.map _).append_known (missing?_labelParts d s.label)
  | join kind left right on label =>
    rw [Source.print, Source.parts, writtenValues_append]
    apply Reports.append_known _ (missing?_labelParts d label)
    rw [writtenValues_append, writtenValues_append, List.append_assoc]
    apply left.print_reports.bind
    intro _
    apply right.print_reports.bind
    intro _
    exact (printOn_reports kind on).map _

theorem Order.print_reports (o : Order) : Reports d (writtenValues o.parts) (o.print d) := by
  obtain ⟨e, direction, nulls⟩ := o
  rw [Order.print, Order.parts, writtenValues_append]
  apply e.print_reports.bind
  intro x
  exact printNulls_reports _ nulls

theorem printOrders_reports (os : List Order) :
    Reports d (writtenValues (orderParts os)) (printOrders d os) := by
  cases os with
  | nil => exact .pure _
  | cons o os =>
    rw [printOrders, orderParts, writtenValues_append]
    apply o.print_reports.bind
    intro x
    exact (printOrders_reports os).map _

theorem printLimit_reports (o : Option Limit) :
    Reports d (writtenValues (limitParts o)) (printLimit d o) := by
  match o with
  | none => exact .pure _
  | some ⟨rows, offset⟩ =>
    rw [printLimit, limitParts, List.cons_append, writtenValues_shown, writtenValues_append]
    by_cases h : d.supportsLimit
    · rw [if_pos h]
      apply Reports.cons_known
      · rw [Dialect.missing?, if_pos h]
      apply Reports.map
      apply rows.print_reports.bind
      intro x
      exact (printOption_reports offset).map _
    · rw [if_neg h]
      simp only [Reports, List.findSome?_cons, Dialect.missing?, if_neg h]
      rfl

end

theorem printAssignments_reports (as : List (String × Expr)) :
    Reports d (writtenValues (assignmentParts as)) (printAssignments d as) := by
  induction as with
  | nil => exact .pure _
  | cons a as ih =>
    obtain ⟨column, e⟩ := a
    rw [printAssignments, assignmentParts, List.cons_append, writtenValues_shown,
      writtenValues_append]
    apply Reports.cons_known rfl
    apply e.print_reports.bind
    intro x
    exact ih.map _

theorem Statement.print_reports (t : Statement) : Reports d t.writtenParts (t.print d) := by
  cases t with
  | select s => exact s.print_reports
  | insert i => exact .known (missing?_insertParts d i) _
  | update u =>
    rw [Statement.print, Update.print, Statement.writtenParts, Statement.parts,
      writtenValues_append, writtenValues_append, List.append_assoc]
    apply Reports.known_append (missing?_tableParts d u.table)
    apply (printAssignments_reports u.assignments).bind
    intro _
    exact (printOption_reports u.filter).map _
  | delete x =>
    rw [Statement.print, Delete.print, Statement.writtenParts, Statement.parts,
      writtenValues_append]
    apply Reports.known_append (missing?_tableParts d x.table)
    exact (printOption_reports x.filter).map _
  | upsert i => exact .known (missing?_insertParts d i) _

end Trees

end Sql

namespace Dialect

theorem generate_reports (d : Dialect) (t : Sql.Statement) :
    Sql.Reports d t.writtenParts (d.generate t) := by
  have h := (t.print_reports (d := d)).map d.text
  rwa [bind_pure_comp] at h

theorem exists_missing?_iff {d : Dialect} {parts : List Sql.Part} :
    (∃ feature, parts.findSome? d.missing? = some feature) ↔
      .nulls ∈ parts ∧ d.supportsNullsOrder = false ∨
        .limit ∈ parts ∧ d.supportsLimit = false := by
  rw [← Option.isSome_iff_exists, List.findSome?_isSome_iff]
  constructor
  · rintro ⟨p, hp, hmissing⟩
    cases p with
    | nulls =>
      cases h : d.supportsNullsOrder with
      | false => exact .inl ⟨hp, rfl⟩
      | true => simp [missing?, h] at hmissing
    | limit =>
      cases h : d.supportsLimit with
      | false => exact .inr ⟨hp, rfl⟩
      | true => simp [missing?, h] at hmissing
    | _ => cases hmissing
  · rintro (⟨hp, h⟩ | ⟨hp, h⟩)
    · exact ⟨.nulls, hp, by simp [missing?, h]⟩
    · exact ⟨.limit, hp, by simp [missing?, h]⟩

/-- A dialect that has both features has a text for every statement. -/
theorem exists_generate {d : Dialect} (hnulls : d.supportsNullsOrder) (hlimit : d.supportsLimit)
    (t : Sql.Statement) : ∃ s, d.generate t = .ok s := by
  have hreports := generate_reports d t
  have hnone : t.writtenParts.findSome? d.missing? = none := by
    rw [Option.eq_none_iff_forall_not_mem]
    intro feature hfeature
    rcases exists_missing?_iff.mp ⟨feature, hfeature⟩ with ⟨-, h⟩ | ⟨-, h⟩
    · simp [hnulls] at h
    · simp [hlimit] at h
  rwa [Sql.Reports, hnone] at hreports

/-- A statement has no text exactly if its text would show a place for nulls or a limit that the
dialect does not have. The error names the dialect and the first of these in the order of writing.
Three of the dialects that are always there have a text for every statement. -/
theorem generate_eq_error_iff (d : Dialect) (t : Sql.Statement) :
    (∀ e, d.generate t = .error e ↔
      ∃ feature, t.writtenParts.findSome? d.missing? = some feature ∧
        e = .unsupported d.name feature) ∧
    ((∃ e, d.generate t = .error e) ↔
      .nulls ∈ t.writtenParts ∧ d.supportsNullsOrder = false ∨
        .limit ∈ t.writtenParts ∧ d.supportsLimit = false) ∧
    (∃ s, ansi.generate t = .ok s) ∧ (∃ s, postgres.generate t = .ok s) ∧
      ∃ s, sqlite.generate t = .ok s := by
  have herror : ∀ e, d.generate t = .error e ↔
      ∃ feature, t.writtenParts.findSome? d.missing? = some feature ∧
        e = .unsupported d.name feature := by
    intro e
    have hreports := generate_reports d t
    unfold Sql.Reports at hreports
    cases hfirst : t.writtenParts.findSome? d.missing? with
    | none =>
      rw [hfirst] at hreports
      obtain ⟨s, hs⟩ := hreports
      simp [hs]
    | some feature =>
      rw [hfirst] at hreports
      simp [hreports, eq_comm]
  refine ⟨herror, ?_, exists_generate rfl rfl t, exists_generate rfl rfl t,
    exists_generate rfl rfl t⟩
  rw [← exists_missing?_iff]
  constructor
  · rintro ⟨e, he⟩
    obtain ⟨feature, hfeature, -⟩ := (herror e).mp he
    exact ⟨feature, hfeature⟩
  · rintro ⟨feature, hfeature⟩
    exact ⟨_, (herror _).mpr ⟨feature, hfeature, rfl⟩⟩

end Dialect

end QueryNotation
