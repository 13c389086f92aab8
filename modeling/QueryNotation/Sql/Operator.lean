/-! The binary operators of SQL. A token of a query that names none of them is kept as it is. -/

namespace QueryNotation.Sql

/-- A binary operator. -/
inductive Operator where
  | eq
  | notEq
  | lt
  | ltEq
  | gt
  | gtEq
  | isIn
  | notIn
  | like
  | notLike
  | between
  | is
  | isNot
  | and
  | or
  | not
  | add
  | sub
  | mul
  | div
  | mod
  | concat
  | custom (token : String)
deriving DecidableEq, Repr

namespace Operator

/-- The operator that a token of a query names; case matters. -/
def ofToken (token : String) : Operator :=
  match token with
  | "=" => .eq
  | "==" => .eq
  | "!=" => .notEq
  | "<>" => .notEq
  | "<" => .lt
  | "<=" => .ltEq
  | ">" => .gt
  | ">=" => .gtEq
  | "in" => .isIn
  | "not in" => .notIn
  | "like" => .like
  | "not like" => .notLike
  | "between" => .between
  | "is" => .is
  | "is not" => .isNot
  | "and" => .and
  | "or" => .or
  | "not" => .not
  | "+" => .add
  | "-" => .sub
  | "*" => .mul
  | "/" => .div
  | "%" => .mod
  | "||" => .concat
  | token => .custom token

/-- The standard spelling. -/
def text : Operator → String
  | .eq => "="
  | .notEq => "!="
  | .lt => "<"
  | .ltEq => "<="
  | .gt => ">"
  | .gtEq => ">="
  | .isIn => "IN"
  | .notIn => "NOT IN"
  | .like => "LIKE"
  | .notLike => "NOT LIKE"
  | .between => "BETWEEN"
  | .is => "IS"
  | .isNot => "IS NOT"
  | .and => "AND"
  | .or => "OR"
  | .not => "NOT"
  | .add => "+"
  | .sub => "-"
  | .mul => "*"
  | .div => "/"
  | .mod => "%"
  | .concat => "||"
  | .custom token => token

end Operator

end QueryNotation.Sql
