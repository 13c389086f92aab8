import QueryNotation.Json.Basic

/-! Scalar values: the literals of a query and of SQL. -/

namespace QueryNotation

/-- A value that is neither an array nor an object. -/
inductive Scalar where
  | null
  | bool (b : Bool)
  | number (n : Number)
  | text (s : String)
deriving DecidableEq, Repr

/-- The scalar on this layer, if it is one. -/
def Node.scalar? : Node α → Option Scalar
  | .null => some .null
  | .bool b => some (.bool b)
  | .number n => some (.number n)
  | .text s => some (.text s)
  | .array _ => none
  | .object _ => none

/-- The scalar that a JSON value is, if it is one. -/
def Json.scalar? (v : Json) : Option Scalar := v.node.scalar?

/-- A scalar as a JSON value. -/
def Scalar.toJson : Scalar → Json
  | .null => .null
  | .bool b => .bool b
  | .number n => .number n
  | .text s => .text s

@[simp] theorem Scalar.scalar?_toJson (s : Scalar) : s.toJson.scalar? = some s := by
  cases s <;> rfl

end QueryNotation
