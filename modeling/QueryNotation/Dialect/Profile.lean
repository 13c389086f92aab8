import QueryNotation.Dialect.Builtin

/-! Profiles: dialects given by data. A profile says what differs from standard SQL. -/

namespace QueryNotation.Dialect

/-- What a dialect changes in standard SQL. -/
structure Profile where
  name : String := "plugin"
  version : Option String := none
  /-- The quote character of names. -/
  quote : Char := '"'
  /-- Names that need no quotes are written without them. -/
  bare : Bool := false
  /-- The text before the number of a placeholder. -/
  marker : Option String := none
  /-- Truth values are numbers. -/
  numberBools : Bool := false
  /-- Limits are written with `OFFSET` and `FETCH`. -/
  fetch : Bool := false
  /-- Types of the database, by declared type. -/
  types : List (String × String) := []
  /-- Functions of the database, by the name in a query. -/
  functions : List (String × String) := []
  /-- Operators of the database, by their standard spelling. -/
  operators : List (String × String) := []
  supportsLimit : Bool := true
  supportsNullsOrder : Bool := true
deriving Repr

namespace Profile

/-- The name as the profile quotes it. -/
def quoteName (p : Profile) (name : String) : String :=
  if p.bare && !needsQuoting name then name else Text.quoted p.quote name

/-- The dialect of a profile. -/
def toDialect (p : Profile) : Dialect :=
  { ansi with
    name := p.name
    version := p.version.getD ansi.version
    quoteName := p.quoteName
    typeName := fun declared => (p.types.lookup declared).getD (standardType declared)
    functionName := fun name => (p.functions.lookup name).getD (standardFunction name)
    operatorText := fun op => (p.operators.lookup op.text).getD op.text
    placeholder := fun index => p.marker.elim (ansi.placeholder index) (· ++ toString index)
    boolText := if p.numberBools then numberBool else wordBool
    limitClause := if p.fetch then offsetFetch else limitOffset
    supportsLimit := p.supportsLimit
    supportsNullsOrder := p.supportsNullsOrder }

end Profile

end QueryNotation.Dialect
