import QueryNotation.Dialect.Builtin
import QueryNotation.Proofs.Parts
import QueryNotation.Sql.Print

/-! Trees that two dialects write alike. Dialects that differ in nothing but their types and
functions give a tree the same text, if they agree on the types and functions that the text shows.
-/

namespace QueryNotation

/-- Dialects that have every clause, and the same texts apart from types and functions. -/
structure Dialect.Kin (d d' : Dialect) : Prop where
  quoteName : d'.quoteName = d.quoteName
  operatorText : d'.operatorText = d.operatorText
  placeholder : d'.placeholder = d.placeholder
  boolText : d'.boolText = d.boolText
  limitClause : d'.limitClause = d.limitClause
  supportsLimit : d.supportsLimit ∧ d'.supportsLimit
  supportsNullsOrder : d.supportsNullsOrder ∧ d'.supportsNullsOrder

/-- Two dialects write a type or a function alike. -/
def Sql.Part.Shared (d d' : Dialect) : Part → Prop
  | .type declared => d'.typeName declared = d.typeName declared
  | .function called => d'.functionName called = d.functionName called
  | _ => True

namespace Sql

open Occurrence

variable {d d' : Dialect}

theorem printScalar_congr (hd : d.Kin d') (v : Scalar) : printScalar d' v = printScalar d v := by
  cases v with
  | bool b => rw [printScalar, printScalar, hd.boolText]
  | _ => rfl

theorem printNulls_congr (hd : d.Kin d') (item : List Piece) (o : Option NullsOrder) :
    printNulls d' item o = printNulls d item o := by
  cases o with
  | none => rfl
  | some nulls =>
    rw [printNulls, printNulls, if_pos hd.supportsNullsOrder.1, if_pos hd.supportsNullsOrder.2]

mutual

theorem Expr.print_congr (hd : d.Kin d') {e : Expr} (h : AllWritten (Part.Shared d d') e.parts) :
    e.print d' = e.print d := by
  cases e with
  | literal v => rw [Expr.print, Expr.print, printScalar_congr hd]
  | binary op left right =>
    obtain ⟨hleft, hright⟩ := allWritten_append.mp h
    rw [Expr.print, Expr.print, Expr.print_congr hd hleft,
      Expr.print_congr hd (allWritten_shown.mp hright).2, hd.operatorText]
  | not operand =>
    have hoperand := Expr.print_congr hd (e := operand) h
    rw [Expr.print, Expr.print, hoperand]
  | group inner =>
    have hinner := Expr.print_congr hd (e := inner) h
    rw [Expr.print, Expr.print, hinner]
  | call name args label =>
    obtain ⟨hname, hargs⟩ := allWritten_shown.mp h
    rw [Expr.print, Expr.print, printExprs_congr hd hargs, show d'.functionName name = _ from hname]
  | list items =>
    have hitems : printExprs d' items = printExprs d items := printExprs_congr hd h
    rw [Expr.print, Expr.print, hitems]
  | subquery s =>
    have hselect := Select.print_congr hd (s := s) h
    rw [Expr.print, Expr.print, hselect]
  | cast operand type =>
    obtain ⟨hoperand, htype⟩ := allWritten_append.mp h
    rw [Expr.print, Expr.print, Expr.print_congr hd hoperand,
      show d'.typeName type = _ from (allWritten_shown.mp htype).1]
  | _ => rfl

theorem printExprs_congr (hd : d.Kin d') {es : List Expr}
    (h : AllWritten (Part.Shared d d') (exprParts es)) : printExprs d' es = printExprs d es := by
  cases es with
  | nil => rfl
  | cons e es =>
    obtain ⟨hhead, htail⟩ := allWritten_append.mp h
    rw [printExprs, printExprs, Expr.print_congr hd hhead, printExprs_congr hd htail]

theorem printOption_congr (hd : d.Kin d') {o : Option Expr}
    (h : AllWritten (Part.Shared d d') (optionParts o)) : printOption d' o = printOption d o := by
  cases o with
  | none => rfl
  | some e =>
    have he := Expr.print_congr hd (e := e) h
    rw [printOption, printOption, he]

theorem Select.print_congr (hd : d.Kin d') {s : Select}
    (h : AllWritten (Part.Shared d d') s.parts) : s.print d' = s.print d := by
  obtain ⟨columns, source, filter, groupBy, having, orderBy, limit, distinct, label⟩ := s
  simp only [Select.parts, allWritten_append] at h
  obtain ⟨⟨⟨⟨⟨⟨hcolumns, hsource⟩, hfilter⟩, hgroup⟩, hhaving⟩, horder⟩, hlimit⟩ := h
  rw [Select.print, Select.print, printColumns_congr hd hcolumns, Source.print_congr hd hsource,
    printOption_congr hd hfilter, printExprs_congr hd hgroup, printOption_congr hd hhaving,
    printOrders_congr hd horder, printLimit_congr hd hlimit]

theorem Column.print_congr (hd : d.Kin d') {c : Column}
    (h : AllWritten (Part.Shared d d') c.parts) : c.print d' = c.print d := by
  cases c with
  | wildcard => rfl
  | expr e label =>
    rw [Column.print, Column.print, Expr.print_congr hd (allWritten_append.mp h).1]

theorem printColumns_congr (hd : d.Kin d') {cs : List Column}
    (h : AllWritten (Part.Shared d d') (columnParts cs)) :
    printColumns d' cs = printColumns d cs := by
  cases cs with
  | nil => rfl
  | cons c cs =>
    obtain ⟨hhead, htail⟩ := allWritten_append.mp h
    rw [printColumns, printColumns, Column.print_congr hd hhead, printColumns_congr hd htail]

/-- The condition of a cross join may hold anything, since it is not printed. -/
theorem printOn_congr (hd : d.Kin d') {kind : JoinKind} {o : Option Expr}
    (h : AllWritten (Part.Shared d d') (kind.condition (optionParts o))) :
    printOn d' kind o = printOn d kind o := by
  cases o with
  | none => rfl
  | some e =>
    rw [printOn, printOn]
    split
    · rfl
    · rename_i hkind
      rw [JoinKind.condition, if_neg hkind] at h
      have he := Expr.print_congr hd (e := e) h
      rw [he]

theorem Source.print_congr (hd : d.Kin d') {s : Source}
    (h : AllWritten (Part.Shared d d') s.parts) : s.print d' = s.print d := by
  cases s with
  | table r => rfl
  | subquery s =>
    rw [Source.print, Source.print, Select.print_congr hd (allWritten_append.mp h).1]
  | join kind left right on label =>
    simp only [Source.parts, allWritten_append] at h
    obtain ⟨⟨⟨hleft, hright⟩, hon⟩, -⟩ := h
    rw [Source.print, Source.print, Source.print_congr hd hleft, Source.print_congr hd hright,
      printOn_congr hd hon]

theorem Order.print_congr (hd : d.Kin d') {o : Order}
    (h : AllWritten (Part.Shared d d') o.parts) : o.print d' = o.print d := by
  obtain ⟨e, direction, nulls⟩ := o
  have he := Expr.print_congr hd (allWritten_append.mp h).1
  rw [Order.print, Order.print, he]
  simp only [printNulls_congr hd]

theorem printOrders_congr (hd : d.Kin d') {os : List Order}
    (h : AllWritten (Part.Shared d d') (orderParts os)) : printOrders d' os = printOrders d os := by
  cases os with
  | nil => rfl
  | cons o os =>
    obtain ⟨hhead, htail⟩ := allWritten_append.mp h
    rw [printOrders, printOrders, Order.print_congr hd hhead, printOrders_congr hd htail]

theorem printLimit_congr (hd : d.Kin d') {o : Option Limit}
    (h : AllWritten (Part.Shared d d') (limitParts o)) : printLimit d' o = printLimit d o := by
  match o with
  | none => rfl
  | some ⟨rows, offset⟩ =>
    obtain ⟨hrows, hoffset⟩ := allWritten_append.mp (allWritten_shown.mp h).2
    rw [printLimit, printLimit, if_pos hd.supportsLimit.1, if_pos hd.supportsLimit.2, Limit.print,
      Limit.print, Expr.print_congr hd hrows, printOption_congr hd hoffset, hd.limitClause]

end

theorem printAssignments_congr (hd : d.Kin d') {as : List (String × Expr)}
    (h : AllWritten (Part.Shared d d') (assignmentParts as)) :
    printAssignments d' as = printAssignments d as := by
  induction as with
  | nil => rfl
  | cons a as ih =>
    obtain ⟨column, e⟩ := a
    obtain ⟨hhead, htail⟩ := allWritten_append.mp h
    rw [printAssignments, printAssignments, Expr.print_congr hd (allWritten_shown.mp hhead).2,
      ih htail]

theorem Insert.print_congr (hd : d.Kin d') (i : Insert) : i.print d' = i.print d := by
  have hrows : printRows d' = printRows d := by
    funext rows
    simp only [printRows, printScalar_congr hd]
  rw [Insert.print, Insert.print, hrows]

theorem Statement.print_congr (hd : d.Kin d') {t : Statement}
    (h : AllWritten (Part.Shared d d') t.parts) : t.print d' = t.print d := by
  cases t with
  | select s => exact Select.print_congr hd h
  | insert i => exact congrArg Except.ok (i.print_congr hd)
  | update u =>
    simp only [Statement.parts, allWritten_append] at h
    rw [Statement.print, Statement.print, Update.print, Update.print,
      printAssignments_congr hd h.1.2, printOption_congr hd h.2]
  | delete x =>
    rw [Statement.print, Statement.print, Delete.print, Delete.print,
      printOption_congr hd (allWritten_append.mp h).2]
  | upsert i => exact congrArg Except.ok (i.print_congr hd)

end Sql

namespace Dialect

theorem text_congr {d d' : Dialect} (hd : d.Kin d') : d'.text = d.text := by
  have hpiece : d'.pieceText = d.pieceText := by
    funext x
    cases x with
    | name s => rw [pieceText, pieceText, hd.quoteName]
    | param index => rw [pieceText, pieceText, hd.placeholder]
    | _ => rfl
  funext pieces
  rw [text, text, hpiece]

theorem generate_congr {d d' : Dialect} (hd : d.Kin d') {t : Sql.Statement}
    (h : Occurrence.AllWritten (Sql.Part.Shared d d') t.parts) : d'.generate t = d.generate t := by
  rw [generate, generate, Sql.Statement.print_congr hd h, text_congr hd]

theorem kin_postgres : ansi.Kin postgres := by
  constructor <;> simp [ansi, postgres]

/-- The types that the standard and PostgreSQL call by different names. -/
def divergentTypes : List String :=
  ["cds.UUID", "cds.Binary", "cds.LargeBinary", "cds.DateTime", "cds.Timestamp"]

theorem postgresType_eq_iff (declared : String) :
    postgresType declared = standardType declared ↔ declared ∉ divergentTypes := by
  unfold postgresType
  split
  case h_4 => exact iff_of_true rfl (by decide)
  case h_7 => simp_all [divergentTypes]
  all_goals exact iff_of_false (by decide) (by decide)

theorem postgresFunction_eq_iff (called : String) :
    postgresFunction called = standardFunction called ↔ standardFunction called ≠ "IFNULL" := by
  unfold postgresFunction
  by_cases h : standardFunction called = "IFNULL" <;> simp [h]

-- A letter outside ASCII may have an upper case in it.
example : standardFunction "ıfNull" = "IFNULL" ∧ postgresFunction "ıfNull" = "COALESCE" := by
  decide

end Dialect

/-- What the standard and PostgreSQL write alike: a type outside the list above, a function that
does not become `IFNULL`, and every part that is neither. -/
def Sql.Part.IsCommon : Part → Prop
  | .type declared => declared ∉ Dialect.divergentTypes
  | .function called => Dialect.standardFunction called ≠ "IFNULL"
  | _ => True

theorem Sql.Part.shared_ansi_postgres_iff {p : Part} :
    p.Shared Dialect.ansi Dialect.postgres ↔ p.IsCommon := by
  cases p with
  | type declared =>
    simp only [Shared, IsCommon, Dialect.postgres, Dialect.ansi]
    exact Dialect.postgresType_eq_iff declared
  | function called =>
    simp only [Shared, IsCommon, Dialect.postgres, Dialect.ansi]
    exact Dialect.postgresFunction_eq_iff called
  | _ => exact Iff.rfl

end QueryNotation
