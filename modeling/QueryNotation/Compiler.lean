import QueryNotation.Dialect.Builtin
import QueryNotation.Event
import QueryNotation.Lowering.Statement
import QueryNotation.Text.Escaped

/-! The compiler from queries to SQL text: a query is validated, lowered and printed in the
compiler's dialect, and each call reports what it does. -/

namespace QueryNotation

/-- A compiler for one dialect. -/
structure Compiler where
  dialect : Dialect
  nested : NestedPolicy

/-- SQL text, and how many parameters were numbered for it. -/
structure Compiled where
  sql : String
  params : Nat
deriving DecidableEq, Repr

/-- The policy as descriptions show it. -/
def NestedPolicy.text : NestedPolicy → String
  | .skip => "Skip"
  | .reject => "Reject"

namespace Compiler

/-- The compiler for standard SQL. -/
def standard : Compiler := ⟨Dialect.ansi, .skip⟩

/-- A compilation that failed after these events. -/
def failed (events : List Event) (f : Failure) : Logged Compiled :=
  ⟨events ++ [.compilationFailed f], .error f⟩

/-- Lowers and prints a valid query. -/
def compileValid (c : Compiler) (q : Query) : Logged Compiled :=
  let statement := (q.statement?.map (·.keyword.text)).getD ""
  let lowered := q.lower c.nested 0
  let events := .compiling c.dialect.name statement :: lowered.dropped.map Event.dropped
  match lowered.outcome with
  | .error e => failed events (.lowering e)
  | .ok (tree, params) =>
    match c.dialect.generate tree with
    | .error e => failed events (.printing e)
    | .ok sql => ⟨events ++ [.compiled params], .ok ⟨sql, params⟩⟩

/-- Compiles a query. -/
def compileQuery (c : Compiler) (q : Query) : Logged Compiled :=
  match q.validate with
  | .error e => failed [] (.validation e)
  | .ok () => c.compileValid q

/-- Compiles the query that a JSON value writes. -/
def compileJson (c : Compiler) (v : Json) : Logged String :=
  match Query.ofValidJson v with
  | .error e => ⟨[.validationFailed e], .error (.validation e)⟩
  | .ok q => (c.compileQuery q).map Compiled.sql

/-- Compiles the query that a JSON text writes, the text being read by `parse`. A text that is no
JSON is reported by the result alone. -/
def compileText (c : Compiler) (parse : String → Option Json) (s : String) : Logged String :=
  match parse s with
  | none => ⟨[], .error (.validation .malformed)⟩
  | some v => c.compileJson v

/-- A short description of a compiler. -/
def describe (c : Compiler) : String :=
  "Converter \x7b dialect: " ++ Text.escaped c.dialect.name ++ ", nested_entries: " ++
    c.nested.text ++ " \x7d"

end Compiler

/-- Compiles a JSON value to standard SQL. -/
def compile (v : Json) : Logged String := Compiler.standard.compileJson v

/-- A short description of a dialect. -/
def Dialect.describe (d : Dialect) : String :=
  "Dialect \x7b name: " ++ Text.escaped d.name ++ ", version: " ++ Text.escaped d.version ++ " \x7d"

end QueryNotation
