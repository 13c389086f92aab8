import QueryNotation.Dialect.Builtin
import QueryNotation.Proofs.Parts
import QueryNotation.Proofs.Success
import QueryNotation.Sql.Print

/-! How a tree is written: `Writes` says which pieces a dialect may write for the parts of a tree,
and every printer is one of its cases. Two names or literals never touch, since something stands
between any two parts; what a text can hold is read off the cases. -/

namespace QueryNotation

/-- A dialect writes its limits with `LIMIT` and `OFFSET`, the rows before the offset. -/
def Dialect.DefaultLimit (d : Dialect) : Prop := d.limitClause = Dialect.limitOffset

theorem Dialect.defaultLimit_of_builtin {d : Dialect} (h : d ∈ Dialect.builtins) :
    d.DefaultLimit := by
  simp only [Dialect.builtins, List.mem_cons, List.not_mem_nil, or_false] at h
  rcases h with rfl | rfl | rfl | rfl <;> rfl

namespace Sql

open Occurrence

/-- A character of keywords and of the punctuation between parts. -/
def isGlueChar (c : Char) : Bool := c.isAlphanum || c ∈ [' ', '\n', '.', ',', '=', '*']

/-- Whether a text consists of keywords and punctuation, and is not empty. -/
def isGlue (s : String) : Bool := !s.toList.isEmpty && s.toList.all isGlueChar

/-- The pieces that write the parts of a tree. -/
inductive Writes (d : Dialect) : List Part → List Piece → Prop
  | nil : Writes d [] []
  | leaf {p : Part} {piece : Piece} (h : p.piece? = some piece) : Writes d [p] [piece]
  /-- The words for a place of nulls, and for a limit, stand beside it. -/
  | nulls : Writes d [.nulls] []
  | limit : Writes d [.limit] []
  | bool (b : Bool) : Writes d [] [.plain (d.boolText b)]
  | number (n : Number) : Writes d [] [.plain n.text]
  | glue (s : String) (h : isGlue s) {a b : List Part} {xs ys : List Piece} (left : Writes d a xs)
      (right : Writes d b ys) : Writes d (a ++ b) (xs ++ .plain s :: ys)
  | operator (op : Operator) {a b : List Part} {xs ys : List Piece} (left : Writes d a xs)
      (right : Writes d b ys) : Writes d (a ++ .operator op :: b)
        (xs ++ .plain (" " ++ d.operatorText op ++ " ") :: ys)
  | parens {a : List Part} {xs : List Piece} (inner : Writes d a xs) : Writes d a (Piece.parens xs)
  | function (name : String) {a : List Part} {xs : List Piece} (args : Writes d a xs) :
      Writes d (.function name :: a) (.plain (d.functionName name) :: xs)
  | cast (type : String) {a : List Part} {xs : List Piece} (operand : Writes d a xs) :
      Writes d (a ++ [.type type])
        (.plain "CAST(" :: xs ++ [.plain (" AS " ++ d.typeName type ++ ")")])

/-- Each list of pieces writes its share of the parts. -/
inductive WritesEach (d : Dialect) : List Part → List (List Piece) → Prop
  | nil : WritesEach d [] []
  | cons {a b : List Part} {xs : List Piece} {xss : List (List Piece)} (head : Writes d a xs)
      (tail : WritesEach d b xss) : WritesEach d (a ++ b) (xs :: xss)

namespace Writes

variable {d : Dialect} {a b : List Part} {xs ys : List Piece}

theorem before (s : String) (h : isGlue s) (right : Writes d b ys) :
    Writes d b (.plain s :: ys) :=
  glue s h nil right

theorem after (s : String) (h : isGlue s) (left : Writes d a xs) :
    Writes d a (xs ++ [.plain s]) := by
  have := glue s h left nil
  rwa [List.append_nil] at this

theorem word (s : String) (h : isGlue s) : Writes d [] [.plain s] := before s h nil

theorem clause (keyword : String) (h : isGlue (keyword ++ " ")) (right : Writes d b ys) :
    Writes d b (Piece.clause keyword ys) :=
  before _ h right

theorem aliased (label : Option String) (left : Writes d a xs) :
    Writes d (a ++ writtenValues (labelParts label)) (Piece.aliased xs label) := by
  cases label with
  | none => simpa [labelParts, Piece.aliased] using left
  | some s => exact glue " AS " (by decide) left (leaf rfl)

/-- What a text holds beside plain pieces is what its parts are pieces of. -/
theorem filterMap_pieces {β : Type} {f : Piece → Option β} (hplain : ∀ s, f (.plain s) = none)
    (h : Writes d a xs) : xs.filterMap f = a.filterMap fun p => p.piece?.bind f := by
  induction h with
  | nil => rfl
  | leaf hpiece => simp [List.filterMap_cons, hpiece]
  | nulls => rfl
  | limit => rfl
  | bool b => simp [hplain]
  | number n => simp [hplain]
  | glue s hs left right ihl ihr => simp [hplain, ihl, ihr]
  | operator op left right ihl ihr => simp [hplain, ihl, ihr, Part.piece?]
  | parens inner ih => simp [Piece.parens, hplain, ih]
  | function name args ih => simp [hplain, ih, Part.piece?]
  | cast type operand ih => simp [hplain, ih, Part.piece?]

end Writes

namespace WritesEach

variable {d : Dialect} {a b : List Part} {xs : List Piece} {xss yss : List (List Piece)}

theorem single (h : Writes d a xs) : WritesEach d a [xs] := by
  have := cons h nil
  rwa [List.append_nil] at this

theorem append (h : WritesEach d a xss) (h' : WritesEach d b yss) :
    WritesEach d (a ++ b) (xss ++ yss) := by
  induction h with
  | nil => exact h'
  | cons head tail ih =>
    rw [List.append_assoc]
    exact cons head ih

theorem eq_nil (h : WritesEach d a []) : a = [] := by
  cases h
  rfl

theorem of_single (h : WritesEach d a [xs]) : Writes d a xs := by
  cases h with
  | cons head tail =>
    rw [tail.eq_nil, List.append_nil]
    exact head

theorem intercalate (s : String) (hs : isGlue s) (h : WritesEach d a xss) :
    Writes d a (List.intercalate [.plain s] xss) := by
  induction h with
  | nil => exact .nil
  | @cons a b xs xss head tail ih =>
    cases xss with
    | nil =>
      rw [tail.eq_nil, List.append_nil]
      simpa [List.intercalate] using head
    | cons ys yss =>
      have := Writes.glue s hs head ih
      simpa [List.intercalate] using this

theorem commas (h : WritesEach d a xss) : Writes d a (Piece.commas xss) :=
  h.intercalate ", " (by decide)

theorem lines (h : WritesEach d a xss) : Writes d a (Sql.lines xss) :=
  h.intercalate "\n" (by decide)

end WritesEach

section Printers

variable {d : Dialect} {a b : List Part}

theorem writes_path (path : List String) :
    Writes d (writtenValues (pathParts path)) (Piece.path path) := by
  have each : WritesEach d (writtenValues (pathParts path))
      (path.map fun s => [if s = "*" then .plain s else .name s]) := by
    induction path with
    | nil => exact .nil
    | cons s path ih =>
      by_cases hs : s = "*"
      · subst hs
        exact .cons (.word "*" (by decide)) ih
      · have := WritesEach.cons (.leaf (p := .name s) rfl) ih
        simpa [pathParts, hs] using this
  exact each.intercalate "." (by decide)

theorem writes_table (r : Ref) : Writes d (writtenValues r.parts) r.printTable := by
  rw [Ref.parts, writtenValues_append]
  exact (writes_path r.path).aliased r.label

theorem writes_scalar (v : Scalar) :
    Writes d (writtenValues (scalarParts v)) [printScalar d v] := by
  cases v with
  | null => exact .word "NULL" (by decide)
  | bool b => exact .bool b
  | number n => exact .number n
  | text s => exact .leaf rfl

theorem writes_call (name : String) {args : List (List Piece)} (h : WritesEach d a args) :
    Writes d (.function name :: a) (printCall (d.functionName name) args) := by
  unfold printCall
  split
  · rename_i hniladic
    obtain ⟨hempty, -⟩ := hniladic
    rw [List.isEmpty_iff] at hempty
    subst hempty
    rw [h.eq_nil]
    exact .function name .nil
  · exact .function name h.commas.parens

theorem writes_not (operand : Expr) {xs : List Piece} (h : Writes d a xs) :
    Writes d a (printNot operand xs) := by
  unfold printNot
  split
  · exact .before "NOT " (by decide) h.parens
  · exact .before "NOT " (by decide) h

theorem writes_right (right : Source) {xs : List Piece} (h : Writes d a xs) :
    Writes d a (printRight right xs) := by
  unfold printRight
  split
  · exact h.parens
  · exact h

theorem writes_aliasedJoin (label : Option String) {xs : List Piece} (h : Writes d a xs) :
    Writes d (a ++ writtenValues (labelParts label)) (aliasedJoin xs label) := by
  cases label with
  | none => simpa [labelParts, aliasedJoin] using h
  | some s => exact h.parens.aliased (some s)

theorem writes_columnList {xss : List (List Piece)} (h : WritesEach d a xss) :
    Writes d a (columnList xss) := by
  unfold columnList
  split
  · rename_i hempty
    rw [List.isEmpty_iff] at hempty
    subst hempty
    rw [h.eq_nil]
    exact .word "*" (by decide)
  · exact h.commas

theorem writes_optionClause (keyword : String) (hk : isGlue (keyword ++ " "))
    {o : Option (List Piece)} (h : WritesEach d a o.toList) :
    WritesEach d a (optionClause keyword o) := by
  cases o with
  | none => exact h
  | some xs => exact .single (h.of_single.clause keyword hk)

theorem writes_listClause (keyword : String) (hk : isGlue (keyword ++ " "))
    {xss : List (List Piece)} (h : WritesEach d a xss) :
    WritesEach d a (listClause keyword xss) := by
  unfold listClause
  split
  · rename_i hempty
    rw [List.isEmpty_iff] at hempty
    subst hempty
    exact h
  · exact .single (h.commas.clause keyword hk)

/-- The right side of a join and its condition, after its left side. -/
theorem writes_join (kind : JoinKind) {a b c : List Part} {left right : List Piece}
    {on : Option (List Piece)} (hl : Writes d a left) (hr : Writes d b right)
    (hcross : kind = .cross → c = []) (hon : kind ≠ .cross → WritesEach d c on.toList) :
    Writes d (a ++ b ++ c) (printJoin kind left right on) := by
  have hkind : isGlue (" " ++ kind.keyword ++ " JOIN ") := by cases kind <;> decide
  unfold printJoin
  split
  · rename_i h
    rw [hcross h, List.append_nil, List.append_nil]
    exact .glue _ hkind hl hr
  · rename_i h
    have hcondition : Writes d c (on.getD [.plain "1=1"]) := by
      have := hon h
      cases on with
      | none => rw [this.eq_nil]; exact .word "1=1" (by decide)
      | some xs => exact this.of_single
    have := Writes.glue _ (by decide : isGlue " ON ") (Writes.glue _ hkind hl hr) hcondition
    simpa using this

end Printers

section Trees

variable {d : Dialect}

mutual

/-- The pieces of a printed expression write the parts that its text shows. -/
theorem Expr.print_writes (hd : d.DefaultLimit) {e : Expr} {xs : List Piece}
    (h : e.print d = .ok xs) :
    Writes d (writtenValues e.parts) xs := by
  cases e with
  | ref r =>
    cases h
    exact writes_path r.path
  | literal v =>
    cases h
    exact writes_scalar v
  | binary op left right =>
    simp only [Expr.print, Outcome.bind_eq_ok, Outcome.pure_eq_ok] at h
    obtain ⟨l, hl, r, hr, rfl⟩ := h
    rw [Expr.parts, writtenValues_append, writtenValues_shown]
    exact .operator op (Expr.print_writes hd hl) (Expr.print_writes hd hr)
  | not operand =>
    simp only [Expr.print, Outcome.bind_eq_ok, Outcome.pure_eq_ok] at h
    obtain ⟨x, hx, rfl⟩ := h
    have hoperand := Expr.print_writes hd hx
    exact writes_not operand hoperand
  | group inner =>
    simp only [Expr.print, Outcome.bind_eq_ok, Outcome.pure_eq_ok] at h
    obtain ⟨x, hx, rfl⟩ := h
    exact (Expr.print_writes hd hx).parens
  | call name args label =>
    simp only [Expr.print, Outcome.bind_eq_ok, Outcome.pure_eq_ok] at h
    obtain ⟨x, hx, rfl⟩ := h
    exact writes_call name (printExprs_writes hd hx)
  | list items =>
    simp only [Expr.print, Outcome.bind_eq_ok, Outcome.pure_eq_ok] at h
    obtain ⟨x, hx, rfl⟩ := h
    exact (printExprs_writes hd hx).commas.parens
  | param index =>
    cases h
    exact .leaf rfl
  | subquery s =>
    simp only [Expr.print, Outcome.bind_eq_ok, Outcome.pure_eq_ok] at h
    obtain ⟨x, hx, rfl⟩ := h
    exact (Select.print_writes hd hx).parens
  | cast operand type =>
    simp only [Expr.print, Outcome.bind_eq_ok, Outcome.pure_eq_ok] at h
    obtain ⟨x, hx, rfl⟩ := h
    rw [Expr.parts, writtenValues_append]
    exact .cast type (Expr.print_writes hd hx)

theorem printExprs_writes (hd : d.DefaultLimit) {es : List Expr} {xss : List (List Piece)}
    (h : printExprs d es = .ok xss) : WritesEach d (writtenValues (exprParts es)) xss := by
  cases es with
  | nil =>
    cases h
    exact .nil
  | cons e es =>
    simp only [printExprs, Outcome.bind_eq_ok, Outcome.pure_eq_ok] at h
    obtain ⟨x, hx, xs, hxs, rfl⟩ := h
    rw [exprParts, writtenValues_append]
    exact .cons (Expr.print_writes hd hx) (printExprs_writes hd hxs)

theorem printOption_writes (hd : d.DefaultLimit) {o : Option Expr} {x : Option (List Piece)}
    (h : printOption d o = .ok x) : WritesEach d (writtenValues (optionParts o)) x.toList := by
  cases o with
  | none =>
    cases h
    exact .nil
  | some e =>
    simp only [printOption, Outcome.bind_eq_ok, Outcome.pure_eq_ok] at h
    obtain ⟨x, hx, rfl⟩ := h
    exact .single (Expr.print_writes hd hx)

theorem Select.print_writes (hd : d.DefaultLimit) {s : Select} {xs : List Piece}
    (h : s.print d = .ok xs) :
    Writes d (writtenValues s.parts) xs := by
  obtain ⟨columns, source, filter, groupBy, having, orderBy, limit, distinct, label⟩ := s
  simp only [Select.print, Outcome.bind_eq_ok, Outcome.pure_eq_ok] at h
  obtain ⟨_, hcolumns, _, hsource, _, hfilter, _, hgroup, _, hhaving, _, horder, _, hlim, rfl⟩ := h
  have hcolumns := (writes_columnList (printColumns_writes hd hcolumns)).clause
    (if distinct then "SELECT DISTINCT" else "SELECT") (by cases distinct <;> decide)
  have hsource := (Source.print_writes hd hsource).clause "FROM" (by decide)
  have hfilter := writes_optionClause "WHERE" (by decide) (printOption_writes hd hfilter)
  have hgroup := writes_listClause "GROUP BY" (by decide) (printExprs_writes hd hgroup)
  have hhaving := writes_optionClause "HAVING" (by decide) (printOption_writes hd hhaving)
  have horder := writes_listClause "ORDER BY" (by decide) (printOrders_writes hd horder)
  have hclauses := ((((WritesEach.cons hcolumns (.single hsource)).append hfilter).append
    hgroup).append hhaving).append horder |>.append (printLimit_writes hd hlim)
  simpa only [Select.parts, writtenValues_append] using hclauses.lines

theorem Column.print_writes (hd : d.DefaultLimit) {c : Column} {xs : List Piece}
    (h : c.print d = .ok xs) :
    Writes d (writtenValues c.parts) xs := by
  cases c with
  | wildcard =>
    cases h
    exact .word "*" (by decide)
  | expr e label =>
    simp only [Column.print, Outcome.bind_eq_ok, Outcome.pure_eq_ok] at h
    obtain ⟨x, hx, rfl⟩ := h
    rw [Column.parts, writtenValues_append]
    exact (Expr.print_writes hd hx).aliased label

theorem printColumns_writes (hd : d.DefaultLimit) {cs : List Column} {xss : List (List Piece)}
    (h : printColumns d cs = .ok xss) : WritesEach d (writtenValues (columnParts cs)) xss := by
  cases cs with
  | nil =>
    cases h
    exact .nil
  | cons c cs =>
    simp only [printColumns, Outcome.bind_eq_ok, Outcome.pure_eq_ok] at h
    obtain ⟨x, hx, xs, hxs, rfl⟩ := h
    rw [columnParts, writtenValues_append]
    exact .cons (Column.print_writes hd hx) (printColumns_writes hd hxs)

/-- The condition of a join, unless the join is a cross join and has none in its text. -/
theorem printOn_writes (hd : d.DefaultLimit) {kind : JoinKind} {o : Option Expr}
    {x : Option (List Piece)} (h : printOn d kind o = .ok x) (hkind : kind ≠ .cross) :
    WritesEach d (writtenValues (kind.condition (optionParts o))) x.toList := by
  rw [JoinKind.condition, if_neg hkind]
  cases o with
  | none =>
    cases h
    exact .nil
  | some e =>
    simp only [printOn, if_neg hkind, Outcome.bind_eq_ok, Outcome.pure_eq_ok] at h
    obtain ⟨x, hx, rfl⟩ := h
    exact .single (Expr.print_writes hd hx)

theorem Source.print_writes (hd : d.DefaultLimit) {s : Source} {xs : List Piece}
    (h : s.print d = .ok xs) :
    Writes d (writtenValues s.parts) xs := by
  cases s with
  | table r =>
    cases h
    exact writes_table r
  | subquery s =>
    simp only [Source.print, Outcome.bind_eq_ok, Outcome.pure_eq_ok] at h
    obtain ⟨x, hx, rfl⟩ := h
    rw [Source.parts, writtenValues_append]
    exact (Select.print_writes hd hx).parens.aliased s.label
  | join kind left right on label =>
    simp only [Source.print, Outcome.bind_eq_ok, Outcome.pure_eq_ok] at h
    obtain ⟨l, hl, r, hr, x, hx, rfl⟩ := h
    -- What a cross join has in its condition is a part of the tree that no piece writes.
    have hcross : kind = .cross → writtenValues (kind.condition (optionParts on)) = [] := by
      rintro rfl
      exact writtenValues_map_hide _
    have hjoin := writes_join kind (Source.print_writes hd hl)
      (writes_right right (Source.print_writes hd hr)) hcross (printOn_writes hd hx)
    simpa only [Source.parts, writtenValues_append] using writes_aliasedJoin label hjoin

theorem Order.print_writes (hd : d.DefaultLimit) {o : Order} {xs : List Piece}
    (h : o.print d = .ok xs) :
    Writes d (writtenValues o.parts) xs := by
  obtain ⟨e, direction, nulls⟩ := o
  simp only [Order.print, Outcome.bind_eq_ok] at h
  obtain ⟨x, hx, hnulls⟩ := h
  have hdirection : isGlue (" " ++ direction.keyword) := by cases direction <;> decide
  have hitem := (Expr.print_writes hd hx).after _ hdirection
  cases nulls with
  | none =>
    cases hnulls
    simpa [Order.parts] using hitem
  | some place =>
    have hplace : isGlue (" NULLS " ++ place.keyword) := by cases place <;> decide
    simp only [printNulls] at hnulls
    split at hnulls
    · cases hnulls
      rw [Order.parts, writtenValues_append]
      exact .glue _ hplace hitem .nulls
    · exact absurd hnulls Outcome.throw_ne_ok

theorem printOrders_writes (hd : d.DefaultLimit) {os : List Order} {xss : List (List Piece)}
    (h : printOrders d os = .ok xss) : WritesEach d (writtenValues (orderParts os)) xss := by
  cases os with
  | nil =>
    cases h
    exact .nil
  | cons o os =>
    simp only [printOrders, Outcome.bind_eq_ok, Outcome.pure_eq_ok] at h
    obtain ⟨x, hx, xs, hxs, rfl⟩ := h
    rw [orderParts, writtenValues_append]
    exact .cons (Order.print_writes hd hx) (printOrders_writes hd hxs)

theorem printLimit_writes (hd : d.DefaultLimit) {o : Option Limit} {xss : List (List Piece)}
    (h : printLimit d o = .ok xss) : WritesEach d (writtenValues (limitParts o)) xss := by
  match o with
  | none =>
    cases h
    exact .nil
  | some ⟨rows, offset⟩ =>
    simp only [printLimit] at h
    split at h
    · simp only [Limit.print, Outcome.bind_eq_ok, Outcome.pure_eq_ok] at h
      obtain ⟨_, ⟨x, hx, y, hy, rfl⟩, rfl⟩ := h
      have hrows := Expr.print_writes hd hx
      have hoffset := printOption_writes hd hy
      rw [show d.limitClause = Dialect.limitOffset from hd]
      -- Nothing is printed for an offset exactly if there is none.
      cases y with
      | none =>
        rw [limitParts, List.cons_append, writtenValues_shown, writtenValues_append, hoffset.eq_nil,
          List.append_nil]
        exact .single (.glue "LIMIT " (by decide) .limit hrows)
      | some z =>
        have hboth := Writes.glue " OFFSET " (by decide) hrows hoffset.of_single
        rw [limitParts, List.cons_append, writtenValues_shown, writtenValues_append]
        exact .single (.glue "LIMIT " (by decide) .limit hboth)
    · exact absurd h Outcome.throw_ne_ok

end

theorem writesEach_names (names : List String) :
    WritesEach d (names.map .name) (names.map fun c => [.name c]) := by
  induction names with
  | nil => exact .nil
  | cons c names ih => exact .cons (.leaf rfl) ih

theorem writes_insertColumns (columns : Option (List String)) {a : List Part} {xs : List Piece}
    (h : Writes d a xs) :
    Writes d (a ++ (columns.getD []).map .name) (xs ++ insertColumns columns) := by
  simp only [insertColumns]
  split
  · rename_i hempty
    rw [List.isEmpty_iff] at hempty
    simpa [hempty] using h
  · exact .glue " " (by decide) h (writesEach_names _).commas.parens

theorem writesEach_cells (row : List Scalar) :
    WritesEach d (writtenValues (row.flatMap scalarParts))
      (row.map fun v => [printScalar d v]) := by
  induction row with
  | nil => exact .nil
  | cons v row ih =>
    rw [List.flatMap_cons, writtenValues_append]
    exact .cons (writes_scalar v) ih

theorem writesEach_rows (rows : List (List Scalar)) :
    WritesEach d (writtenValues (rows.flatMap (·.flatMap scalarParts)))
      (rows.map fun row => Piece.parens (Piece.commas (row.map fun v => [printScalar d v]))) := by
  induction rows with
  | nil => exact .nil
  | cons row rows ih =>
    rw [List.flatMap_cons, writtenValues_append]
    exact .cons (writesEach_cells row).commas.parens ih

theorem Insert.print_writes (i : Insert) : Writes d (writtenValues i.parts) (i.print d) := by
  have hhead := (writes_insertColumns i.columns (writes_table (d := d) i.into)).clause
    "INSERT INTO" (by decide)
  have hrows : WritesEach d (writtenValues ((i.valueRows?.getD []).flatMap (·.flatMap scalarParts)))
      (i.valueRows?.map (printRows d)).toList := by
    cases i.valueRows? with
    | none => exact .nil
    | some rows => exact .single (writesEach_rows rows).commas
  rw [Insert.parts, writtenValues_append, writtenValues_append, writtenValues_map_shown]
  exact (WritesEach.cons hhead (writes_optionClause "VALUES" (by decide) hrows)).lines

theorem printAssignments_writes (hd : d.DefaultLimit) {as : List (String × Expr)}
    {xss : List (List Piece)} (h : printAssignments d as = .ok xss) :
    WritesEach d (writtenValues (assignmentParts as)) xss := by
  induction as generalizing xss with
  | nil =>
    cases h
    exact .nil
  | cons a as ih =>
    obtain ⟨column, e⟩ := a
    simp only [printAssignments, Outcome.bind_eq_ok, Outcome.pure_eq_ok] at h
    obtain ⟨x, hx, xs, hxs, rfl⟩ := h
    have hset := Writes.glue " = " (by decide) (.leaf (p := .name column) rfl)
      (Expr.print_writes hd hx)
    rw [assignmentParts, List.cons_append, writtenValues_shown, writtenValues_append]
    exact .cons hset (ih hxs)

theorem Update.print_writes (hd : d.DefaultLimit) {u : Update} {xs : List Piece}
    (h : u.print d = .ok xs) : Writes d (writtenValues (Statement.update u).parts) xs := by
  simp only [Update.print, Outcome.bind_eq_ok, Outcome.pure_eq_ok] at h
  obtain ⟨as, has, filter, hfilter, rfl⟩ := h
  have htable := (writes_table u.table).clause (d := d) "UPDATE" (by decide)
  have hset := (printAssignments_writes hd has).commas.clause "SET" (by decide)
  have hfilter := writes_optionClause "WHERE" (by decide) (printOption_writes hd hfilter)
  have hclauses := (WritesEach.cons htable (.single hset)).append hfilter
  simpa only [Statement.parts, writtenValues_append] using hclauses.lines

theorem Delete.print_writes (hd : d.DefaultLimit) {x : Delete} {xs : List Piece}
    (h : x.print d = .ok xs) : Writes d (writtenValues (Statement.delete x).parts) xs := by
  simp only [Delete.print, Outcome.bind_eq_ok, Outcome.pure_eq_ok] at h
  obtain ⟨filter, hfilter, rfl⟩ := h
  have htable := (writes_table x.table).clause (d := d) "DELETE FROM" (by decide)
  have hfilter := writes_optionClause "WHERE" (by decide) (printOption_writes hd hfilter)
  simpa only [Statement.parts, writtenValues_append] using (WritesEach.cons htable hfilter).lines

/-- The pieces of a printed statement write the parts that its text shows. -/
theorem Statement.print_writes (hd : d.DefaultLimit) {t : Statement} {xs : List Piece}
    (h : t.print d = .ok xs) : Writes d t.writtenParts xs := by
  cases t with
  | select s => exact Select.print_writes hd h
  | insert i =>
    cases h
    exact Insert.print_writes i
  | update u => exact Update.print_writes hd h
  | delete x => exact Delete.print_writes hd h
  | upsert i =>
    cases h
    exact Insert.print_writes i

end Trees

end Sql

end QueryNotation
