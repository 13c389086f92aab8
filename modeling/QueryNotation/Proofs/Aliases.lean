import QueryNotation.Dialect.Builtin
import QueryNotation.Lowering.Expr
import QueryNotation.Proofs.Changes
import QueryNotation.Proofs.Quoting
import QueryNotation.Proofs.Success
import QueryNotation.Sql.Print

/-! Which aliases a text shows. Those of columns, tables, sources and joins are printed after what
they name. An alias on an expression, or on a select that is not a source, is printed nowhere. The
alias of a column is kept in both ways, so it is printed once. -/

namespace QueryNotation

namespace Sql

/-- A statement without the aliases that have no use. Two statements differ only in such aliases if
they are equal without them. -/
def Statement.unlabelled (t : Statement) : Statement := t.changed (.relabel fun _ => none)

section Print

variable (d : Dialect) (f : Option String → Option String)

mutual

theorem Expr.print_relabelled (e : Expr) : (e.changed (.relabel f)).print d = e.print d := by
  cases e with
  | binary op left right =>
    rw [Expr.changed, Expr.print, Expr.print, left.print_relabelled, right.print_relabelled]
  | not operand =>
    rw [Expr.changed, Expr.print, Expr.print, operand.print_relabelled]
    simp only [printNot, Expr.isBinary_changed]
  | group inner => rw [Expr.changed, Expr.print, Expr.print, inner.print_relabelled]
  | call name args label => rw [Expr.changed, Expr.print, Expr.print, printExprs_relabelled args]
  | list items => rw [Expr.changed, Expr.print, Expr.print, printExprs_relabelled items]
  | subquery s => rw [Expr.changed, Expr.print, Expr.print, s.print_relabelled]
  | cast operand type => rw [Expr.changed, Expr.print, Expr.print, operand.print_relabelled]
  | _ => rfl

theorem printExprs_relabelled (es : List Expr) :
    printExprs d (changedExprs (.relabel f) es) = printExprs d es := by
  cases es with
  | nil => rfl
  | cons e es =>
    rw [changedExprs, printExprs, printExprs, e.print_relabelled, printExprs_relabelled es]

theorem printOption_relabelled (o : Option Expr) :
    printOption d (changedOption (.relabel f) o) = printOption d o := by
  cases o with
  | none => rfl
  | some e => rw [changedOption, printOption, printOption, e.print_relabelled]

/-- The alias of a select is not printed with it. -/
theorem Select.print_relabelled (label : Option String) (s : Select) :
    (s.changed (.relabel f) label).print d = s.print d := by
  obtain ⟨columns, source, filter, groupBy, having, orderBy, limit, distinct, _⟩ := s
  rw [Select.changed, Select.print, Select.print, printColumns_relabelled columns,
    source.print_relabelled, printOption_relabelled filter, printExprs_relabelled groupBy,
    printOption_relabelled having, printOrders_relabelled orderBy, printLimit_relabelled limit]

theorem Column.print_relabelled (c : Column) : (c.changed (.relabel f)).print d = c.print d := by
  cases c with
  | wildcard => rfl
  | expr e label => rw [Column.changed, Column.print, Column.print, e.print_relabelled]

theorem printColumns_relabelled (cs : List Column) :
    printColumns d (changedColumns (.relabel f) cs) = printColumns d cs := by
  cases cs with
  | nil => rfl
  | cons c cs =>
    rw [changedColumns, printColumns, printColumns, c.print_relabelled, printColumns_relabelled cs]

theorem printOn_relabelled (kind : JoinKind) (o : Option Expr) :
    printOn d kind (changedOption (.relabel f) o) = printOn d kind o := by
  cases o with
  | none => rfl
  | some e => rw [changedOption, printOn, printOn, e.print_relabelled]

theorem Source.print_relabelled (s : Source) : (s.changed (.relabel f)).print d = s.print d := by
  cases s with
  | table r => rfl
  | subquery s =>
    rw [Source.changed, Source.print, Source.print, s.print_relabelled, Select.label_changed]
  | join kind left right on label =>
    rw [Source.changed, Source.print, Source.print, left.print_relabelled, right.print_relabelled,
      printOn_relabelled kind on]
    simp only [printRight, Source.isBareJoin_changed]

theorem Order.print_relabelled (o : Order) : (o.changed (.relabel f)).print d = o.print d := by
  obtain ⟨e, direction, nulls⟩ := o
  rw [Order.changed, Order.print, Order.print, e.print_relabelled]

theorem printOrders_relabelled (os : List Order) :
    printOrders d (changedOrders (.relabel f) os) = printOrders d os := by
  cases os with
  | nil => rfl
  | cons o os =>
    rw [changedOrders, printOrders, printOrders, o.print_relabelled, printOrders_relabelled os]

theorem printLimit_relabelled (o : Option Limit) :
    printLimit d (changedLimit (.relabel f) o) = printLimit d o := by
  match o with
  | none => rfl
  | some ⟨rows, offset⟩ =>
    rw [changedLimit, printLimit, printLimit, Limit.print, Limit.print, rows.print_relabelled,
      printOption_relabelled offset]

end

theorem printAssignments_relabelled (as : List (String × Expr)) :
    printAssignments d (changedAssignments (.relabel f) as) = printAssignments d as := by
  induction as with
  | nil => rfl
  | cons a as ih =>
    obtain ⟨column, e⟩ := a
    rw [changedAssignments, List.map_cons, printAssignments, printAssignments,
      e.print_relabelled d f]
    rw [changedAssignments] at ih
    rw [ih]

theorem Statement.print_relabelled (t : Statement) :
    (t.changed (.relabel f)).print d = t.print d := by
  cases t with
  | select s => exact s.print_relabelled d f _
  | update u =>
    rw [Statement.changed, Statement.print, Statement.print, Update.print, Update.print,
      printAssignments_relabelled d f, printOption_relabelled d f]
  | delete x =>
    rw [Statement.changed, Statement.print, Statement.print, Delete.print, Delete.print,
      printOption_relabelled d f]
  | _ => rfl

end Print

/-- The alias that an expression holds itself, under its casts. -/
def Expr.label? : Expr → Option String
  | .ref r => r.label
  | .call _ _ label => label
  | .cast e _ => e.label?
  | _ => none

/-- An expression with another alias, if it can hold one. -/
def Expr.withLabel (label : Option String) : Expr → Expr
  | .ref r => .ref ⟨r.path, label⟩
  | .call name args _ => .call name args label
  | .cast e type => .cast (e.withLabel label) type
  | e => e

/-- A column with another alias, which its expression holds too. -/
def Column.withLabel (label : Option String) : Column → Column
  | .wildcard => .wildcard
  | .expr e _ => .expr (e.withLabel label) label

def Select.withColumnLabel (i : Nat) (label : Option String) (x : Select) : Select :=
  { x with columns := x.columns.modify i (Column.withLabel label) }

theorem Expr.withLabel_castTo (label : Option String) (e : Expr) (cast : Option String) :
    (e.castTo cast).withLabel label = (e.withLabel label).castTo cast := by
  cases cast <;> rfl

theorem Expr.label?_castTo (e : Expr) (cast : Option String) :
    (e.castTo cast).label? = e.label? := by
  cases cast <;> rfl

theorem Expr.unlabelled_withLabel (label : Option String) (e : Expr) :
    (e.withLabel label).changed (.relabel fun _ => none) =
      e.changed (.relabel fun _ => none) := by
  fun_induction Expr.withLabel label e with
  | case3 e type ih => rw [Expr.changed, Expr.changed, ih]
  | _ => rfl

theorem Expr.print_withLabel (d : Dialect) (label : Option String) (e : Expr) :
    (e.withLabel label).print d = e.print d := by
  rw [← print_relabelled d (fun _ => none), unlabelled_withLabel, print_relabelled]

section Columns

variable {d : Dialect}

theorem Column.print_withLabel {e : Expr} {x : List Piece} (h : e.print d = .ok x)
    (old label : Option String) :
    ((Column.expr e old).withLabel label).print d = .ok (Piece.aliased x label) := by
  rw [Column.withLabel, Column.print, Expr.print_withLabel, h]
  rfl

/-- A change of one column's alias leaves the other columns as they are printed. -/
theorem printColumns_withLabel {cs : List Column} {i : Nat} {e : Expr} {old : Option String}
    {xs : List (List Piece)} (hi : cs[i]? = some (.expr e old)) (h : printColumns d cs = .ok xs) :
    ∃ left x right, ∀ label,
      printColumns d (cs.modify i (Column.withLabel label)) =
        .ok (left ++ Piece.aliased x label :: right) := by
  induction cs generalizing i xs with
  | nil => cases hi
  | cons c cs ih =>
    simp only [printColumns, Outcome.bind_eq_ok, Outcome.pure_eq_ok] at h
    obtain ⟨y, hy, ys, hys, -⟩ := h
    cases i with
    | zero =>
      obtain rfl := Option.some.inj hi
      simp only [Column.print, Outcome.bind_eq_ok, Outcome.pure_eq_ok] at hy
      obtain ⟨x, hx, -⟩ := hy
      refine ⟨[], x, ys, fun label => ?_⟩
      rw [List.modify_zero_cons, printColumns, Column.print_withLabel hx, hys]
      rfl
    | succ i =>
      obtain ⟨left, x, right, hcs⟩ := ih hi hys
      refine ⟨y :: left, x, right, fun label => ?_⟩
      rw [List.modify_succ_cons, printColumns, hy, hcs]
      rfl

theorem commas_around (left : List (List Piece)) (x : List Piece) (right : List (List Piece)) :
    ∃ before after, ∀ label, Piece.commas (left ++ Piece.aliased x label :: right) =
      before ++ Piece.aliased [] label ++ after := by
  have haliased (label : Option String) : Piece.aliased x label = x ++ Piece.aliased [] label := by
    cases label <;> simp [Piece.aliased]
  induction left with
  | nil =>
    cases right with
    | nil => exact ⟨x, [], fun label => by simp [Piece.commas, haliased]⟩
    | cons y right =>
      refine ⟨x, .plain ", " :: Piece.commas (y :: right), fun label => ?_⟩
      simp [Piece.commas, List.intercalate_cons_cons, haliased]
  | cons y left ih =>
    obtain ⟨before, after, h⟩ := ih
    refine ⟨y ++ .plain ", " :: before, after, fun label => ?_⟩
    have hcons : Piece.commas (y :: (left ++ Piece.aliased x label :: right)) =
        y ++ [.plain ", "] ++ Piece.commas (left ++ Piece.aliased x label :: right) := by
      cases left <;> exact List.intercalate_cons_cons
    rw [List.cons_append, hcons, h]
    simp

/-- The alias of a column stands in one place of a select's text, whatever it is. -/
theorem Select.print_withColumnLabel {x : Select} {i : Nat} {e : Expr} {old : Option String}
    {pieces : List Piece} (hi : x.columns[i]? = some (.expr e old)) (h : x.print d = .ok pieces) :
    ∃ before after, ∀ label,
      (x.withColumnLabel i label).print d = .ok (before ++ Piece.aliased [] label ++ after) := by
  obtain ⟨columns, source, filter, groupBy, having, orderBy, limit, distinct, place⟩ := x
  simp only [Select.print, Outcome.bind_eq_ok, Outcome.pure_eq_ok] at h
  obtain ⟨columns', hcolumns, source', hsource, filter', hfilter, groupBy', hgroup, having',
    hhaving, orderBy', horder, limit', hlimit, -⟩ := h
  obtain ⟨left, y, right, hmodified⟩ := printColumns_withLabel hi hcolumns
  obtain ⟨before, after, hcommas⟩ := commas_around left y right
  have hlist (label : Option String) : columnList (left ++ Piece.aliased y label :: right) =
      before ++ Piece.aliased [] label ++ after := by
    rw [columnList, if_neg (by simp), hcommas]
  refine ⟨.plain ((if distinct then "SELECT DISTINCT" else "SELECT") ++ " ") :: before,
    after ++ .plain "\n" :: lines (Piece.clause "FROM" source' :: (optionClause "WHERE" filter' ++
      listClause "GROUP BY" groupBy' ++ optionClause "HAVING" having' ++
      listClause "ORDER BY" orderBy' ++ limit')), fun label => ?_⟩
  simp only [withColumnLabel, Select.print, hmodified, hsource, hfilter, hgroup, hhaving, horder,
    hlimit, bind, Except.bind, pure, Except.pure, hlist]
  simp [lines, Piece.clause, List.intercalate_cons_cons]

end Columns

end Sql

/-- Whether a column can have an alias. -/
def Column.canLabel : Column → Bool
  | .ref _ => true
  | .call _ => true
  | _ => false

/-- Whether the expression of a column holds the alias too, which a parameter does not. -/
def Column.storesLabel : Column → Bool
  | .ref r => !r.isParam
  | .call _ => true
  | _ => false

/-- A column with another alias, if it can have one. -/
def Column.withLabel (label : Option String) : Column → Column
  | .ref r => .ref { r with label }
  | .call c => .call { c with label }
  | c => c

def Select.withColumnLabel (i : Nat) (label : Option String) (s : Select) : Select :=
  { s with columns := s.columns.map (·.modify i (Column.withLabel label)) }

section Lowering

variable (label : Option String)

theorem Ref.lower_withLabel (r : Ref) :
    Ref.lower { r with label } = Sql.Expr.withLabel label <$> r.lower := by
  have hparam : Ref.isParam { r with label } = r.isParam := rfl
  rw [Ref.lower, Ref.lower, hparam]
  cases r.isParam with
  | true => simp [Sql.Expr.withLabel_castTo, Sql.Expr.withLabel]
  | false =>
    by_cases h : r.path.isEmpty
    · have hold : r.toTable = .error .emptyReference := if_pos h
      have hnew : Ref.toTable { r with label } = .error .emptyReference := if_pos h
      rw [hold, hnew]
      rfl
    · have hold : r.toTable = pure ⟨r.path, r.label⟩ := if_neg h
      have hnew : Ref.toTable { r with label } = pure ⟨r.path, label⟩ := if_neg h
      rw [hold, hnew]
      simp [Sql.Expr.withLabel_castTo, Sql.Expr.withLabel]

theorem Call.lower_withLabel (c : Call) :
    Call.lower { c with label } = Sql.Expr.withLabel label <$> c.lower := by
  obtain ⟨name, args, old, cast⟩ := c
  simp [Call.lower, Sql.Expr.withLabel_castTo, Sql.Expr.withLabel]

theorem Column.lower_withLabel (c : Column) :
    (c.withLabel label).lower = Sql.Column.withLabel label <$> c.lower := by
  cases c with
  | ref r => simp [Column.withLabel, Column.lower, Ref.lower_withLabel, Sql.Column.withLabel]
  | call c => simp [Column.withLabel, Column.lower, Call.lower_withLabel, Sql.Column.withLabel]
  | _ => rfl

theorem lowerColumns_withLabel (i : Nat) (cs : List Column) :
    lowerColumns (cs.modify i (Column.withLabel label)) =
      (fun xs => xs.modify i (Sql.Column.withLabel label)) <$> lowerColumns cs := by
  induction cs generalizing i with
  | nil => simp [lowerColumns]
  | cons c cs ih =>
    cases i with
    | zero => simp [lowerColumns, Column.lower_withLabel]
    | succ i => simp [lowerColumns, ih]

theorem lowerColumnList_withLabel (i : Nat) (o : Option (List Column)) :
    lowerColumnList (o.map (·.modify i (Column.withLabel label))) =
      (fun xs => xs.modify i (Sql.Column.withLabel label)) <$> lowerColumnList o := by
  have hwildcard : [Sql.Column.wildcard].modify i (Sql.Column.withLabel label) = [.wildcard] := by
    cases i <;> simp [Sql.Column.withLabel]
  cases o with
  | none => simp [lowerColumnList, hwildcard]
  | some cs =>
    cases cs with
    | nil => simp [lowerColumnList, hwildcard]
    | cons c cs =>
      have h := lowerColumns_withLabel label i (c :: cs)
      cases i <;> exact h

/-- An alias given to a column of a query is given to the column of the tree and to nothing else. -/
theorem Select.lower_withColumnLabel (i : Nat) (place : Option String) (s : Select) :
    (s.withColumnLabel i label).lower place =
      Sql.Select.withColumnLabel i label <$> s.lower place := by
  obtain ⟨source, columns, filter, groupBy, having, orderBy, limit, distinct⟩ := s
  simp [Select.withColumnLabel, Select.lower, lowerColumnList_withLabel, Sql.Select.withColumnLabel]

end Lowering

/-- The expression that a column is lowered to holds the alias, unless it is a parameter. -/
def Column.Stores (c : Column) (e : Sql.Expr) : Prop :=
  c.storesLabel → ∀ label, (e.withLabel label).label? = label

open Lowering (Yields)

theorem Column.lower_stores {c : Column} (hc : c.canLabel) :
    c.lower.Yields fun x => ∃ e old, x = .expr e old ∧ c.Stores e := by
  cases c with
  | ref r =>
    have hlower : r.lower.Yields fun e =>
        r.isParam = false → ∀ label, (e.withLabel label).label? = label := by
      unfold Ref.lower
      split
      · rename_i hparam
        refine (Yields.any _).bind fun i _ => .pure fun h => ?_
        simp [hparam] at h
      · refine (Yields.any _).bind fun t _ => .pure fun _ label => ?_
        rw [Sql.Expr.withLabel_castTo, Sql.Expr.label?_castTo]
        rfl
    exact hlower.bind fun e he => .pure ⟨e, _, rfl, fun h => he (by simpa [storesLabel] using h)⟩
  | call c =>
    obtain ⟨name, args, label, cast⟩ := c
    have hlower : (Call.lower ⟨name, args, label, cast⟩).Yields fun e =>
        ∀ label, (e.withLabel label).label? = label := by
      refine (Yields.any _).bind fun xs _ => .pure fun label => ?_
      rw [Sql.Expr.withLabel_castTo, Sql.Expr.label?_castTo]
      rfl
    exact hlower.bind fun e he => .pure ⟨e, _, rfl, fun _ => he⟩
  | _ => cases hc

theorem lowerColumns_stores {cs : List Column} {i : Nat} {c : Column} (hi : cs[i]? = some c)
    (hc : c.canLabel) :
    (lowerColumns cs).Yields fun xs => ∃ e old, xs[i]? = some (.expr e old) ∧ c.Stores e := by
  induction cs generalizing i with
  | nil => cases hi
  | cons c' cs ih =>
    cases i with
    | zero =>
      obtain rfl := Option.some.inj hi
      refine (Column.lower_stores hc).bind fun x hx => (Yields.any _).bind fun xs _ => .pure ?_
      obtain ⟨e, old, rfl, he⟩ := hx
      exact ⟨e, old, rfl, he⟩
    | succ i => exact (Yields.any _).bind fun x _ => (ih hi).bind fun xs hxs => .pure hxs

theorem Select.lower_stores {s : Select} {i : Nat} {c : Column}
    (hi : (s.columns.getD [])[i]? = some c) (hc : c.canLabel) (place : Option String) :
    (s.lower place).Yields fun x => ∃ e old, x.columns[i]? = some (.expr e old) ∧ c.Stores e := by
  obtain ⟨source, columns, filter, groupBy, having, orderBy, limit, distinct⟩ := s
  have hcolumns : (lowerColumnList columns).Yields fun xs =>
      ∃ e old, xs[i]? = some (.expr e old) ∧ c.Stores e := by
    cases columns with
    | none => cases hi
    | some cs =>
      cases cs with
      | nil => cases hi
      | cons c' cs => exact lowerColumns_stores hi hc
  refine hcolumns.bind fun xs hxs => ?_
  -- No other clause touches the columns.
  refine (Yields.any _).bind fun _ _ => (Yields.any _).bind fun _ _ => ?_
  refine (Yields.any _).bind fun _ _ => (Yields.any _).bind fun _ _ => ?_
  exact (Yields.any _).bind fun _ _ => (Yields.any _).bind fun _ _ => .pure hxs

namespace Dialect

variable (d : Dialect)

/-- The text of an alias after what it names. -/
def aliasText : Option String → String
  | some label => " AS " ++ d.quoteName label
  | none => ""

theorem text_alias (label : Option String) :
    d.text (Sql.Piece.aliased [] label) = d.aliasText label := by
  cases label with
  | none => rfl
  | some s =>
    rw [Sql.Piece.aliased, List.nil_append, text_cons]
    rfl

theorem generate_relabelled (f : Option String → Option String) (t : Sql.Statement) :
    d.generate (t.changed (.relabel f)) = d.generate t := by
  rw [generate, generate, Sql.Statement.print_relabelled]

/-- Statements that differ only in aliases of expressions, or of selects that are not sources, have
the same text or the same error. The alias of a column is kept in the column and, unless this is a
parameter, in its expression, and it stands in one place of the text. -/
theorem aliases_shown :
    (∀ t f, d.generate (t.changed (.relabel f)) = d.generate t) ∧
    (∀ t t' : Sql.Statement, t.unlabelled = t'.unlabelled → d.generate t = d.generate t') ∧
    ∀ (s : Select) (i : Nat) (c : Column) (place : Option String) (n n' : Nat) (x : Sql.Select)
      (pieces : List Sql.Piece), (s.columns.getD [])[i]? = some c → c.canLabel →
      s.lower place n = .ok (x, n') → x.print d = .ok pieces →
      ∃ before after, ∀ label, ∃ y e, (s.withColumnLabel i label).lower place n = .ok (y, n') ∧
        y.columns[i]? = some (.expr e label) ∧ (c.storesLabel → e.label? = label) ∧
        (y.print d).map d.text = .ok (before ++ d.aliasText label ++ after) := by
  refine ⟨fun t f => d.generate_relabelled f t, fun t t' h => ?_, ?_⟩
  · calc d.generate t = d.generate t.unlabelled := (d.generate_relabelled _ t).symm
      _ = d.generate t'.unlabelled := by rw [h]
      _ = d.generate t' := d.generate_relabelled _ t'
  · intro s i c place n n' x pieces hi hc hlower hprint
    obtain ⟨e, old, he, hstores⟩ := Select.lower_stores hi hc place n x n' hlower
    obtain ⟨before, after, hpieces⟩ := Sql.Select.print_withColumnLabel he hprint
    refine ⟨d.text before, d.text after, fun label => ?_⟩
    refine ⟨x.withColumnLabel i label, e.withLabel label, ?_, ?_, fun h => hstores h label, ?_⟩
    · rw [Select.lower_withColumnLabel]
      exact Lowering.map_eq_ok.mpr ⟨x, hlower, rfl⟩
    · simp [Sql.Select.withColumnLabel, he, Sql.Column.withLabel]
    · rw [hpieces label, ← d.text_alias label, ← d.text_append, ← d.text_append]
      rfl

end Dialect

/-- A select with an alias in every place that has no use for one. -/
def idlyLabelled (idle : Option String) : Sql.Statement := .select {
  columns := [.expr (.ref ⟨["a"], idle⟩) (some "x")]
  source := .subquery {
    columns := [.wildcard]
    source := .table ⟨["T"], some "t"⟩
    filter := some (.call "f" [.ref ⟨["b"], idle⟩] idle)
    groupBy := []
    having := none
    orderBy := []
    limit := none
    distinct := false
    label := some "s" }
  filter := some (.not (.subquery {
    columns := []
    source := .table ⟨["U"], none⟩
    filter := none
    groupBy := []
    having := none
    orderBy := []
    limit := none
    distinct := false
    label := idle }))
  groupBy := []
  having := none
  orderBy := []
  limit := none
  distinct := false
  label := idle }

/-- A select of a cast column and a parameter. -/
def castAndParam : Select where
  source := some (.ref ⟨["T"], some "t", none, false⟩)
  columns := some [.ref ⟨["a"], some "x", some "cds.Integer", false⟩,
    .ref ⟨["?"], none, none, false⟩]
  filter := none
  groupBy := none
  having := none
  orderBy := none
  limit := none
  distinct := false

theorem idlyLabelled_aliases :
    (idlyLabelled (some "p")).unlabelled = (idlyLabelled none).unlabelled ∧
    Dialect.ansi.generate (idlyLabelled (some "p")) = Dialect.ansi.generate (idlyLabelled none) ∧
    Dialect.ansi.generate (idlyLabelled none) = .ok ("SELECT \"a\" AS \"x\"\nFROM (SELECT *\n" ++
      "FROM \"T\" AS \"t\"\nWHERE f(\"b\")) AS \"s\"\nWHERE NOT (SELECT *\nFROM \"U\")") ∧
    ∃ before after, ∀ label, ∃ y e,
      (castAndParam.withColumnLabel 0 label).lower none 0 = .ok (y, 1) ∧
      y.columns[0]? = some (.expr e label) ∧ e.label? = label ∧
      (y.print .ansi).map Dialect.ansi.text =
        .ok (before ++ Dialect.ansi.aliasText label ++ after) := by
  obtain ⟨-, hsame, hcolumn⟩ := Dialect.aliases_shown .ansi
  obtain ⟨before, after, h⟩ := hcolumn castAndParam 0 _ none 0 1 _ _ rfl rfl rfl rfl
  refine ⟨rfl, hsame _ _ rfl, by with_unfolding_all rfl, before, after, fun label => ?_⟩
  obtain ⟨y, e, hlower, hcolumns, hstored, htext⟩ := h label
  exact ⟨y, e, hlower, hcolumns, hstored rfl, htext⟩

end QueryNotation
