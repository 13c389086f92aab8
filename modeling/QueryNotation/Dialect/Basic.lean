import QueryNotation.Dialect.Names
import QueryNotation.Sql.Operator
import QueryNotation.Sql.Piece
import QueryNotation.Text.Quoted

/-! Dialects: the rules by which a database writes SQL. -/

namespace QueryNotation

/-- The rules of a dialect. -/
structure Dialect where
  name : String
  version : String
  /-- A name in quotes. -/
  quoteName : String → String
  /-- The database's type for a declared type. -/
  typeName : String → String
  /-- The database's function for a function of a query. -/
  functionName : String → String
  operatorText : Sql.Operator → String
  /-- The placeholder of the parameter with this number. -/
  placeholder : Nat → String
  boolText : Bool → String
  /-- The clause that limits the rows, from the rows and the offset. -/
  limitClause : List Sql.Piece → Option (List Sql.Piece) → List Sql.Piece
  supportsLimit : Bool
  supportsNullsOrder : Bool
  supportsDistinctOn : Bool
  supportsReturning : Bool
  supportsMerge : Bool

namespace Dialect

/-- The quote character of text literals. -/
def textQuote : Char := '\x27'

/-- The text of a piece. -/
def pieceText (d : Dialect) : Sql.Piece → String
  | .plain s => s
  | .name s => d.quoteName s
  | .text s => Text.quoted textQuote s
  | .param index => d.placeholder index

/-- The text of pieces in a row. -/
def text (d : Dialect) (pieces : List Sql.Piece) : String := String.join (pieces.map d.pieceText)

/-- A name, in quotes only where it needs them. -/
def quoteIfNeeded (d : Dialect) (name : String) : String :=
  if needsQuoting name then d.quoteName name else name

/-- A limit written with `LIMIT` and `OFFSET`. -/
def limitOffset (rows : List Sql.Piece) : Option (List Sql.Piece) → List Sql.Piece
  | some offset => .plain "LIMIT " :: rows ++ .plain " OFFSET " :: offset
  | none => .plain "LIMIT " :: rows

/-- A limit written with `OFFSET` and `FETCH`; without an offset it is zero. -/
def offsetFetch (rows : List Sql.Piece) (offset : Option (List Sql.Piece)) : List Sql.Piece :=
  .plain "OFFSET " :: offset.getD [.plain "0"] ++ .plain " ROWS FETCH NEXT " :: rows ++
    [.plain " ROWS ONLY"]

/-- Truth values as words. -/
def wordBool (b : Bool) : String := if b then "TRUE" else "FALSE"

/-- Truth values as numbers. -/
def numberBool (b : Bool) : String := if b then "1" else "0"

end Dialect

end QueryNotation
