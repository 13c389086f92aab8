import Mathlib.Data.List.Forall2
import QueryNotation.Proofs.Parentheses
import QueryNotation.Proofs.Rereading

/-! What stands in parentheses of its own. A group, a list and a subquery are printed between two
parentheses, and their text in that of the statement is one matched pair: what stands inside cannot
be read as a part of what stands outside. -/

namespace QueryNotation

/-- A dialect whose texts are read back, `q` being the quote of its names. -/
structure Dialect.Legible (d : Dialect) (q : Char) : Prop where
  limit : d.DefaultLimit
  plain : d.PlainTexts
  matched : d.MatchedTexts
  name : d.quoteName = Text.quoted q
  quote : ¬ isPlainChar q

namespace Sql

open Occurrence

mutual

/-- The groups, lists and subqueries in the text of an expression, in the order in which they open.
-/
def Expr.enclosed : Expr → List Expr
  | .ref _ => []
  | .literal _ => []
  | .binary _ left right => left.enclosed ++ right.enclosed
  | .not operand => operand.enclosed
  | .group inner => .group inner :: inner.enclosed
  | .call _ args _ => exprsEnclosed args
  | .list items => .list items :: exprsEnclosed items
  | .param _ => []
  | .subquery s => .subquery s :: s.enclosed
  | .cast operand _ => operand.enclosed

def exprsEnclosed : List Expr → List Expr
  | [] => []
  | e :: es => e.enclosed ++ exprsEnclosed es

def optionEnclosed : Option Expr → List Expr
  | none => []
  | some e => e.enclosed

def Select.enclosed : Select → List Expr
  | ⟨columns, source, filter, groupBy, having, orderBy, limit, _, _⟩ =>
    columnsEnclosed columns ++ source.enclosed ++ optionEnclosed filter ++ exprsEnclosed groupBy ++
      optionEnclosed having ++ ordersEnclosed orderBy ++ limitEnclosed limit

def Column.enclosed : Column → List Expr
  | .wildcard => []
  | .expr e _ => e.enclosed

def columnsEnclosed : List Column → List Expr
  | [] => []
  | c :: cs => c.enclosed ++ columnsEnclosed cs

/-- The condition of a cross join has no text. -/
def Source.enclosed : Source → List Expr
  | .table _ => []
  | .subquery s => .subquery s :: s.enclosed
  | .join kind left right on _ =>
    left.enclosed ++ right.enclosed ++ if kind = .cross then [] else optionEnclosed on

def Order.enclosed : Order → List Expr
  | ⟨e, _, _⟩ => e.enclosed

def ordersEnclosed : List Order → List Expr
  | [] => []
  | o :: os => o.enclosed ++ ordersEnclosed os

def limitEnclosed : Option Limit → List Expr
  | none => []
  | some ⟨rows, offset⟩ => rows.enclosed ++ optionEnclosed offset

end

def assignmentsEnclosed : List (String × Expr) → List Expr
  | [] => []
  | (_, e) :: rest => e.enclosed ++ assignmentsEnclosed rest

/-- The groups, lists and subqueries in the text of a statement, in the order in which they open. -/
def Statement.enclosed : Statement → List Expr
  | .select s => s.enclosed
  | .insert _ => []
  | .update u => assignmentsEnclosed u.assignments ++ optionEnclosed u.filter
  | .delete d => optionEnclosed d.filter
  | .upsert _ => []

/-- The text of an expression is in parentheses, and between them reads as `content`. -/
structure Expr.Holds (d : Dialect) (q : Char) (e : Expr) (content : List Text.Lexeme) : Prop where
  text : ∃ inner, e.text d = .ok ("(" ++ inner ++ ")") ∧
    Text.scan (quoteChars q) inner.toList = some content
  balanced : Text.Balanced content

/-- What expressions hold is found among the groups of pieces, each in a group of its own and in the
same order. -/
def Encloses (d : Dialect) (q : Char) (es : List Expr) (xs : List Piece) : Prop :=
  ∃ contents, List.Forall₂ (Expr.Holds d q) es contents ∧
    contents.Sublist (Text.groups (xs.flatMap (d.lexemes q)))

/-- Each list of pieces encloses its share of the expressions. -/
inductive EnclosesEach (d : Dialect) (q : Char) : List Expr → List (List Piece) → Prop
  | nil : EnclosesEach d q [] []
  | cons {es es' : List Expr} {xs : List Piece} {xss : List (List Piece)}
      (head : Encloses d q es xs) (tail : EnclosesEach d q es' xss) :
      EnclosesEach d q (es ++ es') (xs :: xss)

section Rules

variable {d : Dialect} {q : Char} {es es' : List Expr} {xs ys : List Piece}
  {xss yss : List (List Piece)}

namespace Encloses

theorem any (xs : List Piece) : Encloses d q [] xs := ⟨[], .nil, List.nil_sublist _⟩

theorem append (hxs : Encloses d q es xs) (hys : Encloses d q es' ys) :
    Encloses d q (es ++ es') (xs ++ ys) := by
  obtain ⟨contents, hholds, hsub⟩ := hxs
  obtain ⟨contents', hholds', hsub'⟩ := hys
  refine ⟨contents ++ contents', List.rel_append hholds hholds', ?_⟩
  rw [List.flatMap_append]
  exact (hsub.append hsub').trans (Text.groups_append_sublist _ _)

theorem after (h : Encloses d q es xs) (ys : List Piece) : Encloses d q es (xs ++ ys) := by
  have happend := h.append (any ys)
  rwa [List.append_nil] at happend

theorem before (h : Encloses d q es ys) (x : Piece) : Encloses d q es (x :: ys) :=
  (any [x]).append h

theorem around (h : Encloses d q es xs) (h' : Encloses d q es' ys) (x : Piece) :
    Encloses d q (es ++ es') (xs ++ x :: ys) :=
  h.append (h'.before x)

theorem parens (h : Encloses d q es xs) : Encloses d q es (Piece.parens xs) := (h.before _).after _

theorem aliased (h : Encloses d q es xs) (label : Option String) :
    Encloses d q es (Piece.aliased xs label) := by
  cases label with
  | none => exact h
  | some label => exact h.after _

end Encloses

namespace EnclosesEach

theorem single (h : Encloses d q es xs) : EnclosesEach d q es [xs] := by
  have hcons := cons h nil
  rwa [List.append_nil] at hcons

theorem append (h : EnclosesEach d q es xss) (h' : EnclosesEach d q es' yss) :
    EnclosesEach d q (es ++ es') (xss ++ yss) := by
  induction h with
  | nil => exact h'
  | cons head tail ih =>
    rw [List.append_assoc]
    exact cons head ih

theorem eq_nil (h : EnclosesEach d q es []) : es = [] := by
  cases h
  rfl

theorem eq_nil_of_isEmpty (h : EnclosesEach d q es xss) (hempty : xss.isEmpty) : es = [] := by
  rw [List.isEmpty_iff.mp hempty] at h
  exact h.eq_nil

theorem of_single (h : EnclosesEach d q es [xs]) : Encloses d q es xs := by
  cases h with
  | cons head tail =>
    rw [tail.eq_nil, List.append_nil]
    exact head

theorem intercalate (h : EnclosesEach d q es xss) (x : Piece) :
    Encloses d q es (List.intercalate [x] xss) := by
  induction h with
  | nil => exact .any _
  | @cons es es' xs xss head tail ih =>
    cases xss with
    | nil =>
      rw [tail.eq_nil, List.append_nil]
      simpa [List.intercalate] using head
    | cons ys yss =>
      rw [List.intercalate_cons_cons, List.append_assoc]
      exact head.around ih x

end EnclosesEach

end Rules

section Printers

variable {d : Dialect} {q : Char} {es es' es'' : List Expr} {xs ys : List Piece}
  {xss : List (List Piece)}

theorem Part.unquoted_append {quotes quotes' : List Char} {p : Part} :
    p.Unquoted d (quotes ++ quotes') ↔ p.Unquoted d quotes ∧ p.Unquoted d quotes' := by
  cases p <;> simp [Part.Unquoted, Text.unquoted_append_iff]

/-- The operators and functions among the parts have no parentheses or quotes in their texts. -/
def Bare (d : Dialect) (q : Char) (parts : List (Occurrence Part)) : Prop :=
  AllWritten (Part.Unquoted d (Text.parens ++ quoteChars q)) parts

theorem bare_append {a b : List (Occurrence Part)} :
    Bare d q (a ++ b) ↔ Bare d q a ∧ Bare d q b :=
  allWritten_append

theorem Bare.tail {p : Part} {a : List (Occurrence Part)} (h : Bare d q (.shown p :: a)) :
    Bare d q a :=
  (allWritten_shown.mp h).2

section Bare

variable (hd : d.Legible q) {parts : List (Occurrence Part)} (hbare : Bare d q parts)
  (h : Writes d (writtenValues parts) xs)

include hd hbare h

theorem Bare.matched : Text.Matched (xs.flatMap (d.lexemes q)) :=
  h.matched hd.matched q fun p hp => (Part.unquoted_append.mp (hbare p hp)).1

theorem Bare.scan_eq :
    Text.scan (quoteChars q) (d.text xs).toList = some (xs.flatMap (d.lexemes q)) :=
  (h.readsBack hd.plain hd.name hd.quote fun p hp =>
    (Part.unquoted_append.mp (hbare p hp)).2).scan_eq

end Bare

/-- An expression that is printed in parentheses is a group of its own. -/
theorem Encloses.enclose (hd : d.Legible q) {e : Expr} {parts : List (Occurrence Part)}
    (hprint : e.print d = .ok (Piece.parens xs)) (hwrites : Writes d (writtenValues parts) xs)
    (hbare : Bare d q parts) (h : Encloses d q es xs) :
    Encloses d q (e :: es) (Piece.parens xs) := by
  have hmatched := hbare.matched hd hwrites
  have hholds : e.Holds d q (xs.flatMap (d.lexemes q)) := by
    refine ⟨⟨d.text xs, ?_, hbare.scan_eq hd hwrites⟩, hmatched.balanced⟩
    rw [Expr.text, hprint]
    exact congrArg Except.ok (d.text_parens xs)
  obtain ⟨contents, hcontents, hsub⟩ := h
  refine ⟨_ :: contents, .cons hholds hcontents, ?_⟩
  rw [Piece.parens, List.cons_append, List.flatMap_cons, List.flatMap_append]
  exact (hsub.cons_cons _).trans (Text.groups_parens_sublist hmatched)

theorem encloses_call (name : String) (h : EnclosesEach d q es xss) :
    Encloses d q es (printCall name xss) := by
  unfold printCall
  split
  · rename_i hniladic
    rw [h.eq_nil_of_isEmpty hniladic.1]
    exact .any _
  · exact (h.intercalate _).parens.before _

theorem encloses_not (operand : Expr) (h : Encloses d q es xs) :
    Encloses d q es (printNot operand xs) := by
  unfold printNot
  split
  · exact h.parens.before _
  · exact h.before _

theorem encloses_right (right : Source) (h : Encloses d q es xs) :
    Encloses d q es (printRight right xs) := by
  unfold printRight
  split
  · exact h.parens
  · exact h

theorem encloses_aliasedJoin (label : Option String) (h : Encloses d q es xs) :
    Encloses d q es (aliasedJoin xs label) := by
  cases label with
  | none => exact h
  | some label => exact h.parens.after _

theorem encloses_columnList (h : EnclosesEach d q es xss) : Encloses d q es (columnList xss) := by
  unfold columnList
  split
  · rename_i hempty
    rw [h.eq_nil_of_isEmpty hempty]
    exact .any _
  · exact h.intercalate _

theorem encloses_optionClause (keyword : String) {o : Option (List Piece)}
    (h : EnclosesEach d q es o.toList) : EnclosesEach d q es (optionClause keyword o) := by
  cases o with
  | none => exact h
  | some xs => exact .single (h.of_single.before _)

theorem encloses_listClause (keyword : String) (h : EnclosesEach d q es xss) :
    EnclosesEach d q es (listClause keyword xss) := by
  unfold listClause
  split
  · rename_i hempty
    rwa [List.isEmpty_iff.mp hempty] at h
  · exact .single ((h.intercalate _).before _)

theorem encloses_join (kind : JoinKind) {on : Option (List Piece)} (hl : Encloses d q es xs)
    (hr : Encloses d q es' ys) (hon : kind ≠ .cross → EnclosesEach d q es'' on.toList) :
    Encloses d q (es ++ es' ++ if kind = .cross then [] else es'') (printJoin kind xs ys on) := by
  have hboth := hl.around hr (.plain (" " ++ kind.keyword ++ " JOIN "))
  unfold printJoin
  by_cases hkind : kind = .cross
  · simpa [hkind] using hboth
  · have hcondition : Encloses d q es'' (on.getD [.plain "1=1"]) := by
      have hon := hon hkind
      cases on with
      | none =>
        rw [hon.eq_nil]
        exact .any _
      | some zs => exact hon.of_single
    rw [if_neg hkind, if_neg hkind]
    exact hboth.append (hcondition.before _)

end Printers

section Trees

variable {d : Dialect} {q : Char}

mutual

/-- What a printed expression shows in parentheses of its own are groups of its text. -/
theorem Expr.print_encloses (hd : d.Legible q) {e : Expr} {xs : List Piece}
    (h : e.print d = .ok xs) (hbare : Bare d q e.parts) : Encloses d q e.enclosed xs := by
  cases e with
  | ref r => exact .any xs
  | literal v => exact .any xs
  | binary op left right =>
    simp only [Expr.print, Outcome.bind_eq_ok, Outcome.pure_eq_ok] at h
    obtain ⟨l, hl, r, hr, rfl⟩ := h
    obtain ⟨hleft, hright⟩ := bare_append.mp hbare
    exact (Expr.print_encloses hd hl hleft).around (Expr.print_encloses hd hr hright.tail) _
  | not operand =>
    simp only [Expr.print, Outcome.bind_eq_ok, Outcome.pure_eq_ok] at h
    obtain ⟨x, hx, rfl⟩ := h
    have hoperand := Expr.print_encloses hd hx hbare
    exact encloses_not operand hoperand
  | group inner =>
    have hprint := h
    simp only [Expr.print, Outcome.bind_eq_ok, Outcome.pure_eq_ok] at h
    obtain ⟨x, hx, rfl⟩ := h
    exact .enclose hd hprint (Expr.print_writes hd.limit hx) hbare (Expr.print_encloses hd hx hbare)
  | call name args label =>
    simp only [Expr.print, Outcome.bind_eq_ok, Outcome.pure_eq_ok] at h
    obtain ⟨x, hx, rfl⟩ := h
    exact encloses_call _ (printExprs_encloses hd hx hbare.tail)
  | list items =>
    have hprint := h
    simp only [Expr.print, Outcome.bind_eq_ok, Outcome.pure_eq_ok] at h
    obtain ⟨x, hx, rfl⟩ := h
    exact .enclose hd hprint (printExprs_writes hd.limit hx).commas hbare
      ((printExprs_encloses hd hx hbare).intercalate _)
  | param index => exact .any xs
  | subquery s =>
    have hprint := h
    simp only [Expr.print, Outcome.bind_eq_ok, Outcome.pure_eq_ok] at h
    obtain ⟨x, hx, rfl⟩ := h
    exact .enclose hd hprint (Select.print_writes hd.limit hx) hbare
      (Select.print_encloses hd hx hbare)
  | cast operand type =>
    simp only [Expr.print, Outcome.bind_eq_ok, Outcome.pure_eq_ok] at h
    obtain ⟨x, hx, rfl⟩ := h
    exact ((Expr.print_encloses hd hx (bare_append.mp hbare).1).before _).after _

theorem printExprs_encloses (hd : d.Legible q) {es : List Expr} {xss : List (List Piece)}
    (h : printExprs d es = .ok xss) (hbare : Bare d q (exprParts es)) :
    EnclosesEach d q (exprsEnclosed es) xss := by
  cases es with
  | nil =>
    cases h
    exact .nil
  | cons e es =>
    simp only [printExprs, Outcome.bind_eq_ok, Outcome.pure_eq_ok] at h
    obtain ⟨x, hx, xs, hxs, rfl⟩ := h
    obtain ⟨hhead, htail⟩ := bare_append.mp hbare
    exact .cons (Expr.print_encloses hd hx hhead) (printExprs_encloses hd hxs htail)

theorem printOption_encloses (hd : d.Legible q) {o : Option Expr} {x : Option (List Piece)}
    (h : printOption d o = .ok x) (hbare : Bare d q (optionParts o)) :
    EnclosesEach d q (optionEnclosed o) x.toList := by
  cases o with
  | none =>
    cases h
    exact .nil
  | some e =>
    simp only [printOption, Outcome.bind_eq_ok, Outcome.pure_eq_ok] at h
    obtain ⟨x, hx, rfl⟩ := h
    exact .single (Expr.print_encloses hd hx hbare)

theorem Select.print_encloses (hd : d.Legible q) {s : Select} {xs : List Piece}
    (h : s.print d = .ok xs) (hbare : Bare d q s.parts) : Encloses d q s.enclosed xs := by
  obtain ⟨columns, source, filter, groupBy, having, orderBy, limit, distinct, label⟩ := s
  simp only [Select.print, Outcome.bind_eq_ok, Outcome.pure_eq_ok] at h
  obtain ⟨_, hcolumns, _, hsource, _, hfilter, _, hgroup, _, hhaving, _, horder, _, hlim, rfl⟩ := h
  simp only [Select.parts, bare_append] at hbare
  obtain ⟨⟨⟨⟨⟨⟨bcolumns, bsource⟩, bfilter⟩, bgroup⟩, bhaving⟩, border⟩, blimit⟩ := hbare
  have hcolumns := (encloses_columnList (printColumns_encloses hd hcolumns bcolumns)).before
    (.plain ((if distinct then "SELECT DISTINCT" else "SELECT") ++ " "))
  have hsource := (Source.print_encloses hd hsource bsource).before (.plain "FROM ")
  have hfilter := encloses_optionClause "WHERE" (printOption_encloses hd hfilter bfilter)
  have hgroup := encloses_listClause "GROUP BY" (printExprs_encloses hd hgroup bgroup)
  have hhaving := encloses_optionClause "HAVING" (printOption_encloses hd hhaving bhaving)
  have horder := encloses_listClause "ORDER BY" (printOrders_encloses hd horder border)
  have hclauses := ((((EnclosesEach.cons hcolumns (.single hsource)).append hfilter).append
    hgroup).append hhaving).append horder |>.append (printLimit_encloses hd hlim blimit)
  exact hclauses.intercalate _

theorem Column.print_encloses (hd : d.Legible q) {c : Column} {xs : List Piece}
    (h : c.print d = .ok xs) (hbare : Bare d q c.parts) : Encloses d q c.enclosed xs := by
  cases c with
  | wildcard => exact .any xs
  | expr e label =>
    simp only [Column.print, Outcome.bind_eq_ok, Outcome.pure_eq_ok] at h
    obtain ⟨x, hx, rfl⟩ := h
    exact (Expr.print_encloses hd hx (bare_append.mp hbare).1).aliased label

theorem printColumns_encloses (hd : d.Legible q) {cs : List Column} {xss : List (List Piece)}
    (h : printColumns d cs = .ok xss) (hbare : Bare d q (columnParts cs)) :
    EnclosesEach d q (columnsEnclosed cs) xss := by
  cases cs with
  | nil =>
    cases h
    exact .nil
  | cons c cs =>
    simp only [printColumns, Outcome.bind_eq_ok, Outcome.pure_eq_ok] at h
    obtain ⟨x, hx, xs, hxs, rfl⟩ := h
    obtain ⟨hhead, htail⟩ := bare_append.mp hbare
    exact .cons (Column.print_encloses hd hx hhead) (printColumns_encloses hd hxs htail)

theorem printOn_encloses (hd : d.Legible q) {kind : JoinKind} {o : Option Expr}
    {x : Option (List Piece)} (h : printOn d kind o = .ok x)
    (hbare : Bare d q (kind.condition (optionParts o))) (hkind : kind ≠ .cross) :
    EnclosesEach d q (optionEnclosed o) x.toList := by
  rw [JoinKind.condition, if_neg hkind] at hbare
  cases o with
  | none =>
    cases h
    exact .nil
  | some e =>
    simp only [printOn, if_neg hkind, Outcome.bind_eq_ok, Outcome.pure_eq_ok] at h
    obtain ⟨x, hx, rfl⟩ := h
    exact .single (Expr.print_encloses hd hx hbare)

theorem Source.print_encloses (hd : d.Legible q) {s : Source} {xs : List Piece}
    (h : s.print d = .ok xs) (hbare : Bare d q s.parts) : Encloses d q s.enclosed xs := by
  cases s with
  | table r => exact .any xs
  | subquery s =>
    simp only [Source.print, Outcome.bind_eq_ok, Outcome.pure_eq_ok] at h
    obtain ⟨x, hx, rfl⟩ := h
    have hprint : (Expr.subquery s).print d = .ok (Piece.parens x) := by
      rw [Expr.print, hx]
      rfl
    have hselect := (bare_append.mp hbare).1
    exact (Encloses.enclose hd hprint (Select.print_writes hd.limit hx) hselect
      (Select.print_encloses hd hx hselect)).aliased s.label
  | join kind left right on label =>
    simp only [Source.print, Outcome.bind_eq_ok, Outcome.pure_eq_ok] at h
    obtain ⟨l, hl, r, hr, x, hx, rfl⟩ := h
    simp only [Source.parts, bare_append] at hbare
    obtain ⟨⟨⟨bleft, bright⟩, bon⟩, -⟩ := hbare
    have hright := encloses_right right (Source.print_encloses hd hr bright)
    exact encloses_aliasedJoin label (encloses_join kind (Source.print_encloses hd hl bleft) hright
      (printOn_encloses hd hx bon))

theorem Order.print_encloses (hd : d.Legible q) {o : Order} {xs : List Piece}
    (h : o.print d = .ok xs) (hbare : Bare d q o.parts) : Encloses d q o.enclosed xs := by
  obtain ⟨e, direction, nulls⟩ := o
  simp only [Order.print, Outcome.bind_eq_ok] at h
  obtain ⟨x, hx, hnulls⟩ := h
  have hitem := (Expr.print_encloses hd hx (bare_append.mp hbare).1).after
    [.plain (" " ++ direction.keyword)]
  cases nulls with
  | none =>
    cases hnulls
    exact hitem
  | some place =>
    simp only [printNulls] at hnulls
    split at hnulls
    · cases hnulls
      exact hitem.after _
    · exact absurd hnulls Outcome.throw_ne_ok

theorem printOrders_encloses (hd : d.Legible q) {os : List Order} {xss : List (List Piece)}
    (h : printOrders d os = .ok xss) (hbare : Bare d q (orderParts os)) :
    EnclosesEach d q (ordersEnclosed os) xss := by
  cases os with
  | nil =>
    cases h
    exact .nil
  | cons o os =>
    simp only [printOrders, Outcome.bind_eq_ok, Outcome.pure_eq_ok] at h
    obtain ⟨x, hx, xs, hxs, rfl⟩ := h
    obtain ⟨hhead, htail⟩ := bare_append.mp hbare
    exact .cons (Order.print_encloses hd hx hhead) (printOrders_encloses hd hxs htail)

theorem printLimit_encloses (hd : d.Legible q) {o : Option Limit} {xss : List (List Piece)}
    (h : printLimit d o = .ok xss) (hbare : Bare d q (limitParts o)) :
    EnclosesEach d q (limitEnclosed o) xss := by
  match o with
  | none =>
    cases h
    exact .nil
  | some ⟨rows, offset⟩ =>
    simp only [printLimit] at h
    split at h
    · simp only [Limit.print, Outcome.bind_eq_ok, Outcome.pure_eq_ok] at h
      obtain ⟨_, ⟨x, hx, y, hy, rfl⟩, rfl⟩ := h
      obtain ⟨brows, boffset⟩ := bare_append.mp hbare.tail
      have hrows := Expr.print_encloses hd hx brows
      have hoffset := printOption_encloses hd hy boffset
      rw [show d.limitClause = Dialect.limitOffset from hd.limit]
      cases y with
      | none =>
        rw [limitEnclosed, hoffset.eq_nil, List.append_nil]
        exact .single (hrows.before _)
      | some z => exact .single ((hrows.before _).around hoffset.of_single _)
    · exact absurd h Outcome.throw_ne_ok

end

theorem printAssignments_encloses (hd : d.Legible q) {as : List (String × Expr)}
    {xss : List (List Piece)} (h : printAssignments d as = .ok xss)
    (hbare : Bare d q (assignmentParts as)) : EnclosesEach d q (assignmentsEnclosed as) xss := by
  induction as generalizing xss with
  | nil =>
    cases h
    exact .nil
  | cons a as ih =>
    obtain ⟨column, e⟩ := a
    simp only [printAssignments, Outcome.bind_eq_ok, Outcome.pure_eq_ok] at h
    obtain ⟨x, hx, xs, hxs, rfl⟩ := h
    obtain ⟨hhead, htail⟩ := bare_append.mp hbare
    have hvalue := Expr.print_encloses hd hx hhead.tail
    exact .cons ((hvalue.before _).before _) (ih hxs htail)

theorem Statement.print_encloses (hd : d.Legible q) {t : Statement} {xs : List Piece}
    (h : t.print d = .ok xs) (hbare : Bare d q t.parts) : Encloses d q t.enclosed xs := by
  cases t with
  | select s => exact Select.print_encloses hd h hbare
  | insert i => exact .any xs
  | update u =>
    simp only [Statement.print, Update.print, Outcome.bind_eq_ok, Outcome.pure_eq_ok] at h
    obtain ⟨as, has, filter, hfilter, rfl⟩ := h
    simp only [Statement.parts, bare_append] at hbare
    have hset := ((printAssignments_encloses hd has hbare.1.2).intercalate (.plain ", ")).before
      (.plain "SET ")
    have hfilter := encloses_optionClause "WHERE" (printOption_encloses hd hfilter hbare.2)
    exact ((EnclosesEach.cons (.any _) (.single hset)).append hfilter).intercalate _
  | delete x =>
    simp only [Statement.print, Delete.print, Outcome.bind_eq_ok, Outcome.pure_eq_ok] at h
    obtain ⟨filter, hfilter, rfl⟩ := h
    have hfilter := encloses_optionClause "WHERE"
      (printOption_encloses hd hfilter (bare_append.mp hbare).2)
    exact (EnclosesEach.cons (.any _) hfilter).intercalate _
  | upsert i => exact .any xs

end Trees

/-- In a legible dialect only an operator or a function that is written as given can have
parentheses or quotes. -/
theorem bare_of_given {d : Dialect} {q : Char} (hd : d.Legible q) {parts : List (Occurrence Part)}
    (hops : ∀ token, .operator (.custom token) ∈ writtenValues parts →
      Text.Unquoted (Text.parens ++ quoteChars q) token)
    (hfuns : ∀ f, .function f ∈ writtenValues parts → d.functionName f = f →
      Text.Unquoted (Text.parens ++ quoteChars q) f) : Bare d q parts := by
  intro p hp
  cases p with
  | operator op =>
    by_cases hgiven : op = .custom (d.operatorText op)
    · exact hops _ (hgiven ▸ hp)
    · have hmatched := (hd.matched.operator op).resolve_right hgiven
      have hplain := (hd.plain.operator op).resolve_right hgiven
      exact Text.unquoted_append_iff.mpr ⟨hmatched, unquoted_of_isPlain hd.quote hplain⟩
  | function f =>
    by_cases hgiven : d.functionName f = f
    · rw [Part.Unquoted, hgiven]
      exact hfuns f hp hgiven
    · have hmatched := (hd.matched.function f).resolve_right hgiven
      have hplain := (hd.plain.function f).resolve_right hgiven
      exact Text.unquoted_append_iff.mpr ⟨hmatched, unquoted_of_isPlain hd.quote hplain⟩
  | _ => exact True.intro

end Sql

namespace Dialect

theorem legible_of_builtin {d : Dialect} (hd : d ∈ builtins) {q : Char}
    (hq : d.quoteName = Text.quoted q) : d.Legible q where
  limit := defaultLimit_of_builtin hd
  plain := plainTexts_of_builtin hd
  matched := matchedTexts_of_builtin hd
  name := hq
  quote := quote_not_plain hd hq

/-- In a text of a dialect that is always there parentheses match, those inside quotes not counted,
and each group, list and subquery of the statement is what stands between the parentheses of a pair
of its own. It needs only that operators and functions which are written as given have neither
quotes nor parentheses. -/
theorem parentheses_match {d : Dialect} (hd : d ∈ builtins) {q : Char}
    (hq : d.quoteName = Text.quoted q) {t : Sql.Statement}
    (hops : ∀ token, .operator (.custom token) ∈ t.writtenParts →
      Text.Unquoted (Text.parens ++ quoteChars q) token)
    (hfuns : ∀ f, .function f ∈ t.writtenParts → d.functionName f = f →
      Text.Unquoted (Text.parens ++ quoteChars q) f)
    {sql : String} (hsql : d.generate t = .ok sql) :
    ∃ lexemes contents, Text.scan (quoteChars q) sql.toList = some lexemes ∧
      Text.Balanced lexemes ∧ List.Forall₂ (Sql.Expr.Holds d q) t.enclosed contents ∧
      contents.Sublist (Text.groups lexemes) ∧
      ∀ content ∈ contents, ∃ before after,
        lexemes = before ++ .plain '(' :: (content ++ .plain ')' :: after) := by
  obtain ⟨pieces, hprint, rfl⟩ := Outcome.map_eq_ok.mp hsql
  have hlegible := legible_of_builtin hd hq
  have hbare : Sql.Bare d q t.parts := Sql.bare_of_given hlegible hops hfuns
  have hwrites := Sql.Statement.print_writes hlegible.limit hprint
  obtain ⟨contents, hholds, hsub⟩ := Sql.Statement.print_encloses hlegible hprint hbare
  exact ⟨_, contents, hbare.scan_eq hlegible hwrites, (hbare.matched hlegible hwrites).balanced,
    hholds, hsub, fun content hcontent => (Text.split_of_mem_groups (hsub.subset hcontent)).2⟩

end Dialect

/-- A select with parentheses of every kind, and others inside its names and literals. -/
def selectWithParens : Sql.Statement := .select {
  columns := [.expr (.cast (.ref ⟨["a(b"], none⟩) "cds.String") none,
    .expr (.call "max" [.group (.binary .add (.param 1) (.param 2))] none) none]
  source := .join .inner (.table ⟨["A"], none⟩)
    (.join .cross (.table ⟨["B"], none⟩) (.table ⟨["C)"], none⟩) (some (.list [])) none)
    none none
  filter := some (.binary (.custom "@>") (.ref ⟨["c"], none⟩)
    (.list [.literal (.text ")("), .subquery {
      columns := []
      source := .table ⟨["D"], none⟩
      filter := some (.not (.binary .eq (.ref ⟨["e"], none⟩) (.literal .null)))
      groupBy := []
      having := none
      orderBy := []
      limit := none
      distinct := false
      label := none }]))
  groupBy := []
  having := none
  orderBy := []
  limit := none
  distinct := false
  label := none }

theorem selectWithParens_match : ∃ sql lexemes contents,
    Dialect.postgres.generate selectWithParens = .ok sql ∧
    Text.scan (quoteChars '"') sql.toList = some lexemes ∧ Text.Balanced lexemes ∧
    List.Forall₂ (Sql.Expr.Holds Dialect.postgres '"') selectWithParens.enclosed contents ∧
    contents.Sublist (Text.groups lexemes) ∧ selectWithParens.enclosed.length = 3 := by
  have hparts : selectWithParens.writtenParts = [
      .name "a(b", .type "cds.String", .function "max", .param 1, .operator .add, .param 2,
      .name "A", .name "B", .name "C)", .name "c", .operator (.custom "@>"), .text ")(", .name "D",
      .name "e", .operator .eq] := rfl
  have hops (token : String) (h : .operator (.custom token) ∈ selectWithParens.writtenParts) :
      Text.Unquoted (Text.parens ++ quoteChars '"') token := by
    have htoken : token = "@>" := by simpa [hparts] using h
    subst htoken
    decide
  have hfuns (f : String) (h : .function f ∈ selectWithParens.writtenParts)
      (_ : Dialect.postgres.functionName f = f) :
      Text.Unquoted (Text.parens ++ quoteChars '"') f := by
    have hf : f = "max" := by simpa [hparts] using h
    subst hf
    decide
  obtain ⟨lexemes, contents, hscan, hbalanced, hholds, hsub, -⟩ :=
    @Dialect.parentheses_match Dialect.postgres (by simp [Dialect.builtins]) '"' rfl
      selectWithParens hops hfuns _ rfl
  exact ⟨_, lexemes, contents, rfl, hscan, hbalanced, hholds, hsub, rfl⟩

end QueryNotation
