import QueryNotation.Lowering.Error
import QueryNotation.Query.Validity
import QueryNotation.Sql.Print

/-! The ways in which the library fails, each with its text. -/

namespace QueryNotation

/-- Why a call failed. -/
inductive Failure where
  | validation (e : ValidationError)
  | lowering (e : LoweringError)
  | printing (e : Sql.PrintError)
  | unknownDialect (name : String)
  | duplicateDialect (name : String)
  /-- The settings cannot be read. -/
  | settings
  /-- A file cannot be read. -/
  | file
deriving DecidableEq, Repr

namespace Failure

/-- The text of what went wrong between validation and the finished text. -/
def conversionCause? : Failure → Option String
  | .lowering e => some e.message
  | .printing e => some e.message
  | _ => none

/-- The text of a failure. -/
def message : Failure → String
  | .validation e => e.message
  | .lowering e => "Conversion failed: " ++ e.message
  | .printing e => "Conversion failed: " ++ e.message
  | .unknownDialect name => "Unknown dialect: '" ++ name ++ "'"
  | .duplicateDialect name => "Dialect '" ++ name ++ "' is already registered"
  | .settings => "Configuration error"
  | .file => "IO error"

/-- Whether the query itself is not valid. -/
def isValidation : Failure → Bool
  | .validation _ => true
  | _ => false

end Failure

end QueryNotation
