import QueryNotation.Json.Draft

/-! Reading JSON text. A shape says which members of a text are read; what is read must have a value
and be nested no deeper than a limit, and what is skipped need only be well formed. -/

namespace QueryNotation.Json

/-- Which parts of a value are read. -/
inductive Shape where
  /-- Everything. -/
  | whole
  /-- Of an object, the members with these keys; of an array, its items, which stand for the members
  in order. -/
  | only (members : List (String × Shape))
  /-- Everything, with shapes for the members with these keys. -/
  | also (members : List (String × Shape))

namespace Shape

/-- The shape of the member `key`, or none if it is skipped. -/
def member? (key : String) : Shape → Option Shape
  | .whole => some .whole
  | .only members => members.lookup key
  | .also members => some ((members.lookup key).getD .whole)

/-- The shapes of an array's first items. -/
def items : Shape → List Shape
  | .only members => members.map Prod.snd
  | _ => []

end Shape

/-- How deep the arrays and objects that are read may be nested. -/
def nestingLimit : Nat := 127

namespace Draft

mutual

/-- The value of what the shape reads, nested at most `depth` deep. -/
def read? (depth : Nat) (shape : Shape) : Draft → Option Json
  | .null => some .null
  | .bool b => some (.bool b)
  | .number n => n.map .number
  | .text s => s.map .text
  | .array items =>
    if depth = 0 then none else (readItems? (depth - 1) shape.items items).map .array
  | .object members =>
    if depth = 0 then none else (readMembers? (depth - 1) shape members).map .object

/-- The values of the items; items beyond the shapes are read whole. -/
def readItems? (depth : Nat) (shapes : List Shape) : List Draft → Option (List Json)
  | [] => some []
  | d :: ds => do
    let v ← read? depth (shapes.head?.getD .whole) d
    let vs ← readItems? depth shapes.tail ds
    some (v :: vs)

/-- The members that are read; every key must have a value. -/
def readMembers? (depth : Nat) (shape : Shape) :
    List (Option String × Draft) → Option (List (String × Json))
  | [] => some []
  | (key, d) :: rest => do
    let k ← key
    match shape.member? k with
    | none => readMembers? depth shape rest
    | some inner =>
      let v ← read? depth inner d
      let members ← readMembers? depth shape rest
      some ((k, v) :: members)

end

end Draft

/-- The value that a text writes, repeated keys kept, as far as the shape reads it. -/
def ofTextAs? (shape : Shape) (s : String) : Option Json :=
  (Draft.ofText? s).bind (Draft.read? nestingLimit shape)

/-- The value that a text writes; of a repeated key the last value counts. -/
def ofText? (s : String) : Option Json :=
  (ofTextAs? .whole s).map settle

end QueryNotation.Json
