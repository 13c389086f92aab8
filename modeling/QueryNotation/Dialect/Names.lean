import QueryNotation.Text.LowerCase

/-! Names that a database reads without quotes. -/

namespace QueryNotation.Dialect

/-- The words that SQL keeps for itself. -/
def reservedWords : List String := [
  "all", "and", "as", "between", "by", "case", "check", "constraint", "create", "cross", "default",
  "delete", "distinct", "else", "end", "exists", "false", "foreign", "from", "full", "group",
  "having", "in", "index", "inner", "insert", "into", "is", "join", "key", "left", "like", "limit",
  "not", "null", "offset", "on", "or", "order", "outer", "primary", "references", "right", "select",
  "set", "table", "then", "true", "union", "update", "user", "values", "when", "where"]

/-- A letter, digit or underscore of ASCII. -/
def isNameChar (c : Char) : Bool := c.isAlphanum || c = '_'

/-- Whether a name is a reserved word in any letter case. -/
def isReserved (name : String) : Bool := reservedWords.contains (Text.lower name)

/-- Whether a name cannot stand without quotes: it is reserved, has a character that is no letter,
digit or underscore, starts with a digit, or is empty. -/
def needsQuoting (name : String) : Bool :=
  isReserved name || name.toList.any (!isNameChar ·) ||
    match name.toList.head? with
    | some c => c.isDigit
    | none => true

end QueryNotation.Dialect
