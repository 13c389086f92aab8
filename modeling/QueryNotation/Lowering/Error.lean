import QueryNotation.Clause

/-! The ways in which a query has no SQL tree. -/

namespace QueryNotation

/-- Why a query has no SQL tree. -/
inductive LoweringError where
  | invalidQueryType
  | missingSource
  | invalidSource
  | missingTarget (statement : Keyword)
  /-- A compound whose number of items has no meaning. -/
  | invalidExpression (items : Nat)
  | invalidExpressionType
  /-- An operator token in the place of an operand. -/
  | unexpectedToken (token : String)
  /-- An operand in the place of an operator token. -/
  | expectedOperator (position : Nat)
  | emptyReference
  | joinArity (found : Nat)
  | emptyRow (index : Nat)
  | nestedEntry (field : String)
deriving DecidableEq, Repr

/-- The text of an error. -/
def LoweringError.message : LoweringError → String
  | .invalidQueryType => "Invalid query type"
  | .missingSource => "Source is undefined"
  | .invalidSource => "Invalid source type"
  | .missingTarget statement => statement.text ++ " target is undefined"
  | .invalidExpression items =>
    "Invalid expression: compound expression with " ++ toString items ++ " elements"
  | .invalidExpressionType => "Invalid expression type"
  | .unexpectedToken token => "Unexpected operator '" ++ token ++ "' in operand position"
  | .expectedOperator position => "Expected an operator token at position " ++ toString position
  | .emptyReference => "Reference path must not be empty"
  | .joinArity found => "JOIN must have exactly two arguments, found " ++ toString found
  | .emptyRow index => "Insert row " ++ toString index ++ " has no scalar values"
  | .nestedEntry field => "Nested insert payload in field '" ++ field ++ "' is not supported"

end QueryNotation
