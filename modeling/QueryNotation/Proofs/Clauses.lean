import QueryNotation.Proofs.Members
import QueryNotation.Proofs.Placeholders
import QueryNotation.Proofs.Quoting

/-! The clauses of a compiled statement. A statement starts with lines of its own, and after them
stand its clauses, one for each key that has something to say. No such key is passed over: what
stands under it is read, lowered and printed, or the statement does not compile. -/

namespace QueryNotation

/-- A clause that chooses, groups, sorts or cuts the rows of a statement. -/
inductive Clause where
  | filter
  | groupBy
  | having
  | orderBy
  | limit
deriving DecidableEq, Repr

namespace Clause

/-- The key under which a clause is written in JSON. -/
def key : Clause → String
  | .filter => "where"
  | .groupBy => "groupBy"
  | .having => "having"
  | .orderBy => "orderBy"
  | .limit => "limit"

/-- The reading of the value that a clause has in the body of a statement. -/
def reading? (clause : Clause) (body : Json) : Option Reading :=
  (body.get? clause.key).map Json.reading

/-- Whether the value of a clause is a list. -/
def isList : Clause → Bool
  | .groupBy => true
  | .orderBy => true
  | _ => false

/-- A value that says nothing: null, or a list without items. -/
def Silent (clause : Clause) (v : Json) : Prop := v = .null ∨ clause.isList ∧ v = .array []

/-- The line of a clause: what its value reads as, lowered after the parameter `n` and printed. The
last parameter in it is `n'`. -/
inductive Line (d : Dialect) : Clause → Json → Nat → Nat → String → Prop
  | filter {v : Json} {e : Expr} {n n' : Nat} {x : Sql.Expr} {pieces : List Sql.Piece}
      (read : Expr.form.ofJson? v = some e) (lower : e.lower n = .ok (x, n'))
      (print : x.print d = .ok pieces) : Line d .filter v n n' ("WHERE " ++ d.text pieces)
  | groupBy {items : List Json} {es : List Expr} {n n' : Nat} {xs : List Sql.Expr}
      {parts : List (List Sql.Piece)} (read : items.mapM Expr.form.ofJson? = some es)
      (lower : lowerExprs es n = .ok (xs, n')) (print : Sql.printExprs d xs = .ok parts) :
      Line d .groupBy (.array items) n n' ("GROUP BY " ++ ", ".intercalate (parts.map d.text))
  | having {v : Json} {e : Expr} {n n' : Nat} {x : Sql.Expr} {pieces : List Sql.Piece}
      (read : Expr.form.ofJson? v = some e) (lower : e.lower n = .ok (x, n'))
      (print : x.print d = .ok pieces) : Line d .having v n n' ("HAVING " ++ d.text pieces)
  | orderBy {items : List Json} {os : List Order} {n n' : Nat} {xs : List Sql.Order}
      {parts : List (List Sql.Piece)} (read : items.mapM Order.form.ofJson? = some os)
      (lower : lowerOrders os n = .ok (xs, n')) (print : Sql.printOrders d xs = .ok parts) :
      Line d .orderBy (.array items) n n' ("ORDER BY " ++ ", ".intercalate (parts.map d.text))
  | limit {v : Json} {l : Limit} {n n' : Nat} {x : Sql.Limit} {pieces : List Sql.Piece}
      (read : Limit.form.ofJson? v = some l) (lower : l.lower n = .ok (x, n'))
      (print : x.print d = .ok pieces) : Line d .limit v n n' (d.text pieces)

end Clause

/-- The clauses of a statement, in order. -/
def Keyword.clauses : Keyword → List Clause
  | .select => [.filter, .groupBy, .having, .orderBy, .limit]
  | .update => [.filter]
  | .delete => [.filter]
  | .insert => []
  | .upsert => []

/-- The lines of clauses whose values stand in `body`. A clause has a line exactly if its key has a
value that says something; its parameters come after those of the clauses before it. -/
inductive Clauses (d : Dialect) (body : Json) : List Clause → Nat → Nat → List String → Prop
  | nil (n : Nat) : Clauses d body [] n n []
  | silent {clause : Clause} {clauses : List Clause} {n n' : Nat} {lines : List String}
      (h : ∀ v ∈ body.get? clause.key, clause.Silent v)
      (rest : Clauses d body clauses n n' lines) : Clauses d body (clause :: clauses) n n' lines
  | written {clause : Clause} {clauses : List Clause} {v : Json} {n n₁ n' : Nat} {line : String}
      {lines : List String} (hv : body.get? clause.key = some v) (h : ¬ clause.Silent v)
      (hline : clause.Line d v n n₁ line) (rest : Clauses d body clauses n₁ n' lines) :
      Clauses d body (clause :: clauses) n n' (line :: lines)

/-- The lines before the clauses of a statement, whose parameters are those up to `n`. -/
inductive Head (d : Dialect) (body : Json) : Keyword → Nat → List String → Prop
  | select {s : Select} {columns : List Sql.Column} {source : Sql.Source} {n₁ n : Nat}
      {parts : List (List Sql.Piece)} {pieces : List Sql.Piece}
      (read : Select.form.ofJson? body = some s)
      (lowerColumns : lowerColumnList s.columns 0 = .ok (columns, n₁))
      (lowerFrom : lowerSource s.source n₁ = .ok (source, n))
      (printColumns : Sql.printColumns d columns = .ok parts)
      (printFrom : source.print d = .ok pieces) :
      Head d body .select n [
        (if s.distinct then "SELECT DISTINCT " else "SELECT ") ++ d.text (Sql.columnList parts),
        "FROM " ++ d.text pieces]
  | update {u : Update} {r : Ref} {table : Sql.Ref} {assignments : List (String × Sql.Expr)}
      {n : Nat} {parts : List (List Sql.Piece)} (read : Update.form.ofJson? body = some u)
      (target : u.target = some r) (toTable : r.toTable = .ok table)
      (lowerSet : lowerAssignments (u.assignments.getD []) 0 = .ok (assignments, n))
      (printSet : Sql.printAssignments d assignments = .ok parts) :
      Head d body .update n [
        "UPDATE " ++ d.text table.printTable, "SET " ++ ", ".intercalate (parts.map d.text)]
  | delete {x : Delete} {r : Ref} {table : Sql.Ref} (read : Delete.form.ofJson? body = some x)
      (target : x.target = some r) (toTable : r.toTable = .ok table) :
      Head d body .delete 0 ["DELETE FROM " ++ d.text table.printTable]

section Text

variable (d : Dialect)

theorem Dialect.text_clause (keyword : String) (pieces : List Sql.Piece) :
    d.text (Sql.Piece.clause keyword pieces) = keyword ++ " " ++ d.text pieces := by
  rw [← String.toList_inj, Sql.Piece.clause, d.toList_text_cons]
  simp [Dialect.pieceText]

theorem Dialect.text_intercalate (s : String) (parts : List (List Sql.Piece)) :
    d.text (List.intercalate [.plain s] parts) = s.intercalate (parts.map d.text) := by
  rw [← String.toList_inj, String.toList_intercalate, List.map_map]
  induction parts with
  | nil => rfl
  | cons x parts ih =>
    cases parts with
    | nil => simp
    | cons y parts =>
      rw [List.intercalate_cons_cons, d.toList_text_append, d.toList_text_append, ih]
      simp [Dialect.text, Dialect.pieceText]

theorem Dialect.text_lines (clauses : List (List Sql.Piece)) :
    d.text (Sql.lines clauses) = "\n".intercalate (clauses.map d.text) :=
  d.text_intercalate "\n" clauses

end Text

section Lines

variable {d : Dialect} {body : Json} {clause : Clause} {keyword : String} {clauses : List Clause}
  {n n₁ n' : Nat} {lines : List String}

/-- A clause that is an expression. -/
theorem Clauses.option {o : Option Expr} {x : Option Sql.Expr} {pieces : Option (List Sql.Piece)}
    (hline : ∀ {v : Json} {e : Expr} {x : Sql.Expr} {pieces : List Sql.Piece},
      Expr.form.ofJson? v = some e → e.lower n = .ok (x, n₁) → x.print d = .ok pieces →
      clause.Line d v n n₁ (keyword ++ " " ++ d.text pieces))
    (hlist : ¬ clause.isList)
    (hread : optional? (fun r => some r.expr) (clause.reading? body) = some o)
    (hlower : lowerOption o n = .ok (x, n₁)) (hprint : Sql.printOption d x = .ok pieces)
    (rest : Clauses d body clauses n₁ n' lines) :
    Clauses d body (clause :: clauses) n n'
      ((Sql.optionClause keyword pieces).map d.text ++ lines) := by
  rcases optional?_reading hread with ⟨rfl, hnull⟩ | ⟨v, e, hv, hne, he, rfl⟩
  · rw [lowerOption, Lowering.pure_eq_ok] at hlower
    obtain ⟨rfl, rfl⟩ := hlower
    cases hprint
    exact .silent (fun v hv => .inl (hnull v hv)) rest
  · simp only [lowerOption, Lowering.bind_eq_ok, Lowering.pure_eq_ok] at hlower
    obtain ⟨y, _, hy, rfl, rfl⟩ := hlower
    simp only [Sql.printOption, Outcome.bind_eq_ok, Outcome.pure_eq_ok] at hprint
    obtain ⟨ps, hps, rfl⟩ := hprint
    rw [Sql.optionClause, List.map_singleton, d.text_clause]
    exact .written hv (not_or.mpr ⟨hne, fun h => hlist h.1⟩) (hline he hy hps) rest

theorem eq_nil_of_mapM_eq_some_nil {f : α → Option β} {l : List α} (h : l.mapM f = some []) :
    l = [] := by
  cases l with
  | nil => rfl
  | cons a l => simp [List.mapM_cons, Option.bind_eq_some_iff] at h

/-- A clause that is a list. It has a line exactly if the list has items. -/
theorem Clauses.list {f : Reading → Option α} {o : Option (List α)} {parts : List (List Sql.Piece)}
    (hline : ∀ {items : List Json} {l : List α}, items.mapM (fun v => f v.reading) = some l →
      o = some l →
      clause.Line d (.array items) n n₁ (keyword ++ " " ++ ", ".intercalate (parts.map d.text)))
    (hlist : clause.isList)
    (hread : optional? (Reading.list? f) (clause.reading? body) = some o)
    (hempty : o.getD [] = [] → n₁ = n) (hparts : parts = [] ↔ o.getD [] = [])
    (rest : Clauses d body clauses n₁ n' lines) :
    Clauses d body (clause :: clauses) n n'
      ((Sql.listClause keyword parts).map d.text ++ lines) := by
  by_cases hnil : parts = []
  · -- Nothing is printed and no parameter is numbered, and the value is null or has no items.
    have ho := hparts.mp hnil
    rw [hempty ho] at rest
    subst hnil
    refine .silent (fun v hv => ?_) rest
    rcases optional?_reading hread with ⟨_, hnull⟩ | ⟨v', l, hv', _, hl, rfl⟩
    · exact .inl (hnull v hv)
    · obtain ⟨items, rfl, hitems⟩ := list?_reading hl
      obtain rfl : l = [] := ho
      rw [hv', eq_nil_of_mapM_eq_some_nil hitems, Option.mem_some_iff] at hv
      exact .inr ⟨hlist, hv.symm⟩
  · rcases optional?_reading hread with ⟨rfl, _⟩ | ⟨v, l, hv, hne, hl, rfl⟩
    · exact absurd (hparts.mpr rfl) hnil
    · obtain ⟨items, rfl, hitems⟩ := list?_reading hl
      have hitems_ne : Json.array items ≠ .array [] := by
        rintro ⟨⟩
        cases hitems
        exact hnil (hparts.mpr rfl)
      rw [Sql.listClause, if_neg (by rwa [List.isEmpty_iff]), List.map_singleton, d.text_clause,
        Sql.Piece.commas, d.text_intercalate]
      exact .written hv (not_or.mpr ⟨hne, fun h => hitems_ne h.2⟩) (hline hitems rfl) rest

/-- The clause of a limit. -/
theorem Clauses.limit {o : Option Limit} {x : Option Sql.Limit} {parts : List (List Sql.Piece)}
    (hread : optional? Reading.limit (Clause.limit.reading? body) = some o)
    (hlower : lowerLimit o n = .ok (x, n₁)) (hprint : Sql.printLimit d x = .ok parts)
    (rest : Clauses d body clauses n₁ n' lines) :
    Clauses d body (.limit :: clauses) n n' (parts.map d.text ++ lines) := by
  rcases optional?_reading hread with ⟨rfl, hnull⟩ | ⟨v, l, hv, hne, hl, rfl⟩
  · rw [lowerLimit, Lowering.pure_eq_ok] at hlower
    obtain ⟨rfl, rfl⟩ := hlower
    cases hprint
    exact .silent (fun v hv => .inl (hnull v hv)) rest
  · simp only [lowerLimit, Lowering.bind_eq_ok, Lowering.pure_eq_ok] at hlower
    obtain ⟨y, _, hy, rfl, rfl⟩ := hlower
    rw [Sql.printLimit] at hprint
    split at hprint
    · simp only [Outcome.bind_eq_ok, Outcome.pure_eq_ok] at hprint
      obtain ⟨ps, hps, rfl⟩ := hprint
      exact .written hv (not_or.mpr ⟨hne, fun h => Bool.false_ne_true h.1⟩) (.limit hl hy hps) rest
    · exact absurd hprint Outcome.throw_ne_ok

theorem Clauses.groupBy {o : Option (List Expr)} {xs : List Sql.Expr}
    {parts : List (List Sql.Piece)}
    (hread : optional? (Reading.list? fun r => some r.expr) (Clause.groupBy.reading? body) = some o)
    (hlower : lowerExprList o n = .ok (xs, n₁)) (hprint : Sql.printExprs d xs = .ok parts)
    (rest : Clauses d body clauses n₁ n' lines) :
    Clauses d body (.groupBy :: clauses) n n'
      ((Sql.listClause "GROUP BY" parts).map d.text ++ lines) := by
  have hlower' : lowerExprs (o.getD []) n = .ok (xs, n₁) := by cases o <;> exact hlower
  have hends : (o.getD [] = [] → n₁ = n) ∧ (parts = [] ↔ o.getD [] = []) := by
    generalize o.getD [] = es at hlower'
    cases es with
    | nil =>
      cases hlower'
      cases hprint
      exact ⟨fun _ => rfl, fun _ => rfl, fun _ => rfl⟩
    | cons e es =>
      simp only [lowerExprs, Lowering.bind_eq_ok, Lowering.pure_eq_ok] at hlower'
      obtain ⟨x, _, _, ys, _, _, rfl, _⟩ := hlower'
      simp only [Sql.printExprs, Outcome.bind_eq_ok, Outcome.pure_eq_ok] at hprint
      obtain ⟨p, _, ps, _, rfl⟩ := hprint
      simp
  refine .list (fun hitems ho => ?_) rfl hread hends.1 hends.2 rest
  subst ho
  exact .groupBy hitems hlower' hprint

theorem Clauses.orderBy {o : Option (List Order)} {xs : List Sql.Order}
    {parts : List (List Sql.Piece)}
    (hread : optional? (Reading.list? Reading.order) (Clause.orderBy.reading? body) = some o)
    (hlower : lowerOrderList o n = .ok (xs, n₁)) (hprint : Sql.printOrders d xs = .ok parts)
    (rest : Clauses d body clauses n₁ n' lines) :
    Clauses d body (.orderBy :: clauses) n n'
      ((Sql.listClause "ORDER BY" parts).map d.text ++ lines) := by
  have hlower' : lowerOrders (o.getD []) n = .ok (xs, n₁) := by cases o <;> exact hlower
  have hends : (o.getD [] = [] → n₁ = n) ∧ (parts = [] ↔ o.getD [] = []) := by
    generalize o.getD [] = os at hlower'
    cases os with
    | nil =>
      cases hlower'
      cases hprint
      exact ⟨fun _ => rfl, fun _ => rfl, fun _ => rfl⟩
    | cons e os =>
      simp only [lowerOrders, Lowering.bind_eq_ok, Lowering.pure_eq_ok] at hlower'
      obtain ⟨x, _, _, ys, _, _, rfl, _⟩ := hlower'
      simp only [Sql.printOrders, Outcome.bind_eq_ok, Outcome.pure_eq_ok] at hprint
      obtain ⟨p, _, ps, _, rfl⟩ := hprint
      simp
  refine .list (fun hitems ho => ?_) rfl hread hends.1 hends.2 rest
  subst ho
  exact .orderBy hitems hlower' hprint

theorem Clauses.filter {o : Option Expr} {x : Option Sql.Expr} {pieces : Option (List Sql.Piece)}
    (hread : optional? (fun r => some r.expr) (Clause.filter.reading? body) = some o)
    (hlower : lowerOption o n = .ok (x, n₁)) (hprint : Sql.printOption d x = .ok pieces)
    (rest : Clauses d body clauses n₁ n' lines) :
    Clauses d body (.filter :: clauses) n n'
      ((Sql.optionClause "WHERE" pieces).map d.text ++ lines) :=
  .option (fun hread hlower hprint => .filter hread hlower hprint) Bool.false_ne_true hread hlower
    hprint rest

theorem Clauses.having {o : Option Expr} {x : Option Sql.Expr} {pieces : Option (List Sql.Piece)}
    (hread : optional? (fun r => some r.expr) (Clause.having.reading? body) = some o)
    (hlower : lowerOption o n = .ok (x, n₁)) (hprint : Sql.printOption d x = .ok pieces)
    (rest : Clauses d body clauses n₁ n' lines) :
    Clauses d body (.having :: clauses) n n'
      ((Sql.optionClause "HAVING" pieces).map d.text ++ lines) :=
  .option (fun hread hlower hprint => .having hread hlower hprint) Bool.false_ne_true hread hlower
    hprint rest

end Lines

section Bodies

variable {members : List (String × Json)}

theorem Update.filter_of_ofJson? {u : Update}
    (h : Update.form.ofJson? (.object members) = some u) :
    optional? (fun r => some r.expr) (Clause.filter.reading? (.object members)) =
      some u.filter := by
  change Update.ofReading? (Json.object members).reading = some u at h
  simp only [Update.ofReading?, Json.record?_reading, List.map_cons, List.map_nil,
    Option.bind_eq_bind, Option.bind_some, Option.bind_eq_some_iff, Option.some.injEq] at h
  obtain ⟨_, _, _, _, filter, hfilter, rfl⟩ := h
  exact hfilter

theorem Delete.filter_of_ofJson? {x : Delete}
    (h : Delete.form.ofJson? (.object members) = some x) :
    optional? (fun r => some r.expr) (Clause.filter.reading? (.object members)) =
      some x.filter := by
  change Delete.ofReading? (Json.object members).reading = some x at h
  simp only [Delete.ofReading?, Json.record?_reading, List.map_cons, List.map_nil,
    Option.bind_eq_bind, Option.bind_some, Option.bind_eq_some_iff, Option.some.injEq] at h
  obtain ⟨_, _, filter, hfilter, rfl⟩ := h
  exact hfilter

/-- The clauses of a select are read from the values of their keys. -/
theorem Select.clauses_of_ofJson? {s : Select}
    (h : Select.form.ofJson? (.object members) = some s) :
    optional? (fun r => some r.expr) (Clause.filter.reading? (.object members)) = some s.filter ∧
      optional? (Reading.list? fun r => some r.expr) (Clause.groupBy.reading? (.object members)) =
        some s.groupBy ∧
      optional? (fun r => some r.expr) (Clause.having.reading? (.object members)) = some s.having ∧
      optional? (Reading.list? Reading.order) (Clause.orderBy.reading? (.object members)) =
        some s.orderBy ∧
      optional? Reading.limit (Clause.limit.reading? (.object members)) = some s.limit := by
  have hread : Select.form.ofJson? (.object members) =
      Select.ofNode? (Json.object members).reading.node := by
    change (Json.object members).reading.select = _
    rw [Json.reading, Json.fold_eq]
    rfl
  rw [hread] at h
  simp only [Select.ofNode?, Json.record?_reading, Select.keys, List.map_cons, List.map_nil,
    Option.bind_eq_bind, Option.bind_some, Option.bind_eq_some_iff, Option.some.injEq] at h
  obtain ⟨_, _, _, _, _, hfilter, _, hgroupBy, _, hhaving, _, horderBy, _, hlimit, _, _, rfl⟩ := h
  exact ⟨hfilter, hgroupBy, hhaving, horderBy, hlimit⟩

end Bodies

section Statements

variable {d : Dialect} {members : List (String × Json)} {n' : Nat} {pieces : List Sql.Piece}

theorem Update.clauses_of_print {u : Update} {t : Sql.Update}
    (hread : Update.form.ofJson? (.object members) = some u) (hlower : u.lower 0 = .ok (t, n'))
    (hprint : t.print d = .ok pieces) :
    ∃ n head lines, Head d (.object members) .update n head ∧
      Clauses d (.object members) Keyword.update.clauses n n' lines ∧
      d.text pieces = "\n".intercalate (head ++ lines) := by
  have hfilter := Update.filter_of_ofJson? hread
  obtain ⟨target, set, filter⟩ := u
  cases target with
  | none => exact absurd hlower Lowering.throw_ne_ok
  | some r =>
    simp only [Update.lower, Lowering.bind_eq_ok, Lowering.lift_eq_ok,
      Lowering.pure_eq_ok] at hlower
    obtain ⟨assignments, n, hset, table, _, ⟨htable, rfl⟩, x, _, hx, rfl, rfl⟩ := hlower
    simp only [Sql.Update.print, Outcome.bind_eq_ok, Outcome.pure_eq_ok] at hprint
    obtain ⟨parts, hparts, p, hp, rfl⟩ := hprint
    have hhead := Head.update hread rfl htable hset hparts
    have hlines := Clauses.filter hfilter hx hp (.nil _)
    refine ⟨n, _, _, hhead, hlines, ?_⟩
    rw [d.text_lines]
    simp [d.text_clause, d.text_intercalate, Sql.Piece.commas]

theorem Delete.clauses_of_print {x : Delete} {t : Sql.Delete}
    (hread : Delete.form.ofJson? (.object members) = some x) (hlower : x.lower 0 = .ok (t, n'))
    (hprint : t.print d = .ok pieces) :
    ∃ n head lines, Head d (.object members) .delete n head ∧
      Clauses d (.object members) Keyword.delete.clauses n n' lines ∧
      d.text pieces = "\n".intercalate (head ++ lines) := by
  have hfilter := Delete.filter_of_ofJson? hread
  obtain ⟨target, filter⟩ := x
  cases target with
  | none => exact absurd hlower Lowering.throw_ne_ok
  | some r =>
    simp only [Delete.lower, Lowering.bind_eq_ok, Lowering.lift_eq_ok,
      Lowering.pure_eq_ok] at hlower
    obtain ⟨table, _, ⟨htable, rfl⟩, x, _, hx, rfl, rfl⟩ := hlower
    simp only [Sql.Delete.print, Outcome.bind_eq_ok, Outcome.pure_eq_ok] at hprint
    obtain ⟨p, hp, rfl⟩ := hprint
    have hhead := @Head.delete d _ _ _ _ hread rfl htable
    have hlines := Clauses.filter hfilter hx hp (.nil _)
    refine ⟨0, _, _, hhead, hlines, ?_⟩
    rw [d.text_lines]
    simp [d.text_clause]

theorem Select.clauses_of_print {s : Select} {t : Sql.Select}
    (hread : Select.form.ofJson? (.object members) = some s)
    (hlower : s.lower none 0 = .ok (t, n')) (hprint : t.print d = .ok pieces) :
    ∃ n head lines, Head d (.object members) .select n head ∧
      Clauses d (.object members) Keyword.select.clauses n n' lines ∧
      d.text pieces = "\n".intercalate (head ++ lines) := by
  obtain ⟨hfilter, hgroupBy, hhaving, horderBy, hlimit⟩ := Select.clauses_of_ofJson? hread
  obtain ⟨source, columns, filter, groupBy, having, orderBy, limit, distinct⟩ := s
  simp only [Select.lower, Lowering.bind_eq_ok, Lowering.pure_eq_ok] at hlower
  obtain ⟨columns', _, hcolumns, source', _, hsource, filter', _, hf, groupBy', _, hg, having', _,
    hh, orderBy', _, ho, limit', _, hl, rfl, rfl⟩ := hlower
  simp only [Sql.Select.print, Outcome.bind_eq_ok, Outcome.pure_eq_ok] at hprint
  obtain ⟨cs, hcs, fs, hfs, ws, hws, gs, hgs, hs, hhs, os, hos, ls, hls, rfl⟩ := hprint
  have hhead := Head.select hread hcolumns hsource hcs hfs
  have hlines := Clauses.filter hfilter hf hws (.groupBy hgroupBy hg hgs
    (.having hhaving hh hhs (.orderBy horderBy ho hos (.limit hlimit hl hls (.nil _)))))
  refine ⟨_, _, _, hhead, hlines, ?_⟩
  rw [d.text_lines]
  cases distinct <;> simp [d.text_clause]

end Statements

theorem Query.body_of_validateTop {keyword : Keyword} {body : Json} {u : Unit}
    (h : Query.validateTop (.object [(keyword.text, body)]) = .ok u) :
    ∃ members, body = .object members := by
  cases body with
  | object members => exact ⟨members, rfl⟩
  | _ =>
    simp only [Query.validateTop, Json.node, Node.settle, lastWins, List.foldl_cons, List.foldl_nil,
      setMember, Keyword.ofText?_text] at h
    exact absurd h Outcome.throw_ne_ok

/-- A compiled query with one key is the statement under that key, which is an object, lowered from
the number zero on and printed. -/
theorem Compiler.compileJson_single {c : Compiler} {keyword : Keyword} {body : Json} {sql : String}
    (h : (c.compileJson (.object [(keyword.text, body)])).result = .ok sql) :
    ∃ members statement t n pieces, body = .object members ∧
      Statement.ofBody? keyword body = some statement ∧
      (statement.lower c.nested 0).outcome = .ok (t, n) ∧ t.print c.dialect = .ok pieces ∧
      sql = c.dialect.text pieces := by
  unfold compileJson at h
  split at h
  · cases h
  · rename_i q hq
    obtain ⟨r, hr, rfl⟩ := Outcome.map_eq_ok.mp h
    obtain ⟨u, htop, hq⟩ := Outcome.bind_eq_ok.mp hq
    obtain ⟨members, rfl⟩ := Query.body_of_validateTop htop
    split at hq
    · rename_i q' hread
      simp only [Outcome.bind_eq_ok, Outcome.pure_eq_ok] at hq
      obtain ⟨_, _, rfl⟩ := hq
      obtain ⟨statement, hbody, hstatement⟩ :=
        Query.statement?_of_single (by rintro ⟨⟩) hread
      obtain ⟨t, pieces, hlower, hprint, htext⟩ := compileQuery_ok hr
      rw [Query.lower, hstatement] at hlower
      exact ⟨members, statement, t, r.params, pieces, rfl, hbody, hlower, hprint, htext.symm⟩
    · exact absurd hq Outcome.throw_ne_ok

/-- Every clause of a compiled statement has its line, and there are no other lines but those that
the statement starts with. So a filter is never dropped, and the text of an update or a delete ends
with it. -/
theorem Compiler.clauses_of_compileJson {c : Compiler} {keyword : Keyword}
    (hkeyword : keyword ∈ [.update, .delete, .select]) {body : Json} {sql : String}
    (h : (c.compileJson (.object [(keyword.text, body)])).result = .ok sql) :
    ∃ n' n head lines, Head c.dialect body keyword n head ∧
      Clauses c.dialect body keyword.clauses n n' lines ∧
      sql = "\n".intercalate (head ++ lines) := by
  obtain ⟨members, statement, t, n, pieces, rfl, hbody, hlower, hprint, rfl⟩ :=
    compileJson_single h
  simp only [List.mem_cons, List.not_mem_nil, or_false] at hkeyword
  rcases hkeyword with rfl | rfl | rfl
  · obtain ⟨u, hu, rfl⟩ := Option.map_eq_some_iff.mp hbody
    obtain ⟨x, hx, rfl⟩ := Lowering.map_eq_ok.mp hlower
    exact ⟨n, Update.clauses_of_print hu hx hprint⟩
  · obtain ⟨u, hu, rfl⟩ := Option.map_eq_some_iff.mp hbody
    obtain ⟨x, hx, rfl⟩ := Lowering.map_eq_ok.mp hlower
    exact ⟨n, Delete.clauses_of_print hu hx hprint⟩
  · obtain ⟨s, hs, rfl⟩ := Option.map_eq_some_iff.mp hbody
    obtain ⟨x, hx, rfl⟩ := Lowering.map_eq_ok.mp hlower
    exact ⟨n, Select.clauses_of_print hs hx hprint⟩

/-- The body of a select with clauses that say something, one that is null and one without items.
-/
def selectWithClauses : Json :=
  let column (name : String) : Json := .object [("ref", .array [.text name])]
  .object [
    ("from", column "B"),
    ("where", .object [("xpr", .array [column "a", .text "=", column "?"])]),
    ("groupBy", .array []),
    ("having", .null),
    ("orderBy", .array [.object [("ref", .array [.text "a"]), ("sort", .text "desc")]]),
    ("limit", .object [("rows", .object [("val", .number (.integer 5))])])]

theorem selectWithClauses_lines :
    (Compiler.standard.compileJson (.object [(Keyword.select.text, selectWithClauses)])).result =
        .ok "SELECT *\nFROM \"B\"\nWHERE \"a\" = $1\nORDER BY \"a\" DESC\nLIMIT 5" ∧
      ∃ n' n head lines, Head .ansi selectWithClauses .select n head ∧
        Clauses .ansi selectWithClauses Keyword.select.clauses n n' lines ∧
        "SELECT *\nFROM \"B\"\nWHERE \"a\" = $1\nORDER BY \"a\" DESC\nLIMIT 5" =
          "\n".intercalate (head ++ lines) := by
  have h : (Compiler.standard.compileJson
      (.object [(Keyword.select.text, selectWithClauses)])).result =
      .ok "SELECT *\nFROM \"B\"\nWHERE \"a\" = $1\nORDER BY \"a\" DESC\nLIMIT 5" := by
    with_unfolding_all rfl
  exact ⟨h, Compiler.clauses_of_compileJson (by simp) h⟩

end QueryNotation
