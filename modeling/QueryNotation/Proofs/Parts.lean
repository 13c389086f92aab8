import QueryNotation.Proofs.Occurrence
import QueryNotation.Sql.Basic
import QueryNotation.Sql.Piece

/-! The parts of a SQL tree: the names, literals, parameters, operators, functions and types that
its text is made from, and the clauses that not every dialect has. They stand in the order in which
a tree is written, which is also the order in which lowering builds it. -/

namespace QueryNotation.Sql

/-- A part of a SQL tree that its text depends on. -/
inductive Part where
  /-- A name that the dialect quotes: a segment of a path, an alias, a column. -/
  | name (s : String)
  /-- The contents of a text literal. -/
  | text (s : String)
  /-- The parameter with this number. -/
  | param (index : Nat)
  | operator (op : Operator)
  | function (name : String)
  /-- The declared type of a cast. -/
  | type (declared : String)
  /-- A place for nulls in an order. -/
  | nulls
  /-- A limit on the rows. -/
  | limit
deriving DecidableEq, Repr

namespace Part

def param? : Part → Option Nat
  | .param index => some index
  | _ => none

/-- The piece of text that is this part and nothing else. -/
def piece? : Part → Option Piece
  | .name s => some (.name s)
  | .text s => some (.text s)
  | .param index => some (.param index)
  | _ => none

end Part

/-- The names of a path; a segment `*` is none. -/
def pathParts (path : List String) : List (Occurrence Part) :=
  (path.filter (· ≠ "*")).map fun s => .shown (.name s)

def labelParts (label : Option String) : List (Occurrence Part) :=
  (label.map fun s => Occurrence.shown (.name s)).toList

/-- The names of a table and its alias. -/
def Ref.parts (r : Ref) : List (Occurrence Part) := pathParts r.path ++ labelParts r.label

/-- The contents of a literal that is text. -/
def scalarParts : Scalar → List (Occurrence Part)
  | .text s => [.shown (.text s)]
  | _ => []

mutual

/-- The parts of an expression; an alias on it is none of them. -/
def Expr.parts : Expr → List (Occurrence Part)
  | .ref r => pathParts r.path
  | .literal v => scalarParts v
  | .binary op left right => left.parts ++ .shown (.operator op) :: right.parts
  | .not operand => operand.parts
  | .group inner => inner.parts
  | .call name args _ => .shown (.function name) :: exprParts args
  | .list items => exprParts items
  | .param index => [.shown (.param index)]
  | .subquery s => s.parts
  | .cast operand type => operand.parts ++ [.shown (.type type)]

def exprParts : List Expr → List (Occurrence Part)
  | [] => []
  | e :: es => e.parts ++ exprParts es

def optionParts : Option Expr → List (Occurrence Part)
  | none => []
  | some e => e.parts

/-- The parts of a select, clause by clause; its alias belongs to the place where it stands. -/
def Select.parts : Select → List (Occurrence Part)
  | ⟨columns, source, filter, groupBy, having, orderBy, limit, _, _⟩ =>
    columnParts columns ++ source.parts ++ optionParts filter ++ exprParts groupBy ++
      optionParts having ++ orderParts orderBy ++ limitParts limit

/-- The parts of a column: those of its expression, and its alias. -/
def Column.parts : Column → List (Occurrence Part)
  | .wildcard => []
  | .expr e label => e.parts ++ labelParts label

def columnParts : List Column → List (Occurrence Part)
  | [] => []
  | c :: cs => c.parts ++ columnParts cs

/-- The parts of a source: those of a join are left, right, condition and alias. -/
def Source.parts : Source → List (Occurrence Part)
  | .table r => r.parts
  | .subquery s => s.parts ++ labelParts s.label
  | .join kind left right on label =>
    left.parts ++ right.parts ++ kind.condition (optionParts on) ++ labelParts label

def Order.parts : Order → List (Occurrence Part)
  | ⟨e, _, nulls⟩ => e.parts ++ (nulls.map fun _ => Occurrence.shown .nulls).toList

def orderParts : List Order → List (Occurrence Part)
  | [] => []
  | o :: os => o.parts ++ orderParts os

/-- The parts of a limit that may be missing: the limit itself, its rows, its offset. -/
def limitParts : Option Limit → List (Occurrence Part)
  | none => []
  | some ⟨rows, offset⟩ => .shown .limit :: rows.parts ++ optionParts offset

end

/-- The parts of an insert: target, columns, and the text in the rows that are written. -/
def Insert.parts (i : Insert) : List (Occurrence Part) :=
  i.into.parts ++ ((i.columns.getD []).map fun c => .shown (.name c)) ++
    (i.valueRows?.getD []).flatMap (·.flatMap scalarParts)

/-- The parts of assignments, each column before its value. -/
def assignmentParts : List (String × Expr) → List (Occurrence Part)
  | [] => []
  | (column, e) :: rest => .shown (.name column) :: e.parts ++ assignmentParts rest

namespace Statement

def parts : Statement → List (Occurrence Part)
  | .select s => s.parts
  | .insert i => i.parts
  | .update u => u.table.parts ++ assignmentParts u.assignments ++ optionParts u.filter
  | .delete d => d.table.parts ++ optionParts d.filter
  | .upsert i => i.parts

/-- The numbers of all parameters of a statement, in order. -/
def params (t : Statement) : List Nat := t.parts.filterMap (·.value.param?)

/-- The parts of a statement that its text shows, in order. -/
def writtenParts (t : Statement) : List Part := Occurrence.writtenValues t.parts

end Statement

end QueryNotation.Sql
