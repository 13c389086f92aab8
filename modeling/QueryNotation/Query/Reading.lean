import QueryNotation.Query.Basic

/-! The meaning of JSON in query notation. A `Reading` says what a JSON value means in each place
where a query may hold it, and is computed from the readings of the value's parts. The forms of an
expression, a source or a column are tried in a fixed order, and the first that fits entirely is
taken; a value that fits none of them is `other`.

A record is written as an object, whose unknown keys are ignored, or as an array of its members in
order. A known key that is repeated spoils the record. -/

namespace QueryNotation

/-- What a JSON value means in each place. -/
structure Reading where
  /-- The readings of the value's parts. -/
  node : Node Reading
  /-- The value itself, of every repeated key only the last value. -/
  value : Json
  expr : Expr
  source : Source
  column : Column
  select : Option Select
  order : Option Order
  limit : Option Limit

/-- The value of `key`, if it has one; none if the key is repeated. -/
def member? (key : String) (members : List (String × α)) : Option (Option α) :=
  match members.filter (·.1 = key) with
  | [] => some none
  | [m] => some (some m.2)
  | _ => none

/-- The members of a record with these keys. An array holds at least the first `least` of them and
nothing more than all. -/
def Node.record? (keys : List String) (least : Nat) : Node α → Option (List (Option α))
  | .object members => keys.mapM (member? · members)
  | .array items =>
    if least ≤ items.length ∧ items.length ≤ keys.length then
      some (items.map some ++ List.replicate (keys.length - items.length) none)
    else none
  | _ => none

namespace Reading

/-- Whether the value is null. -/
def isNull (r : Reading) : Bool :=
  match r.node with
  | .null => true
  | _ => false

/-- The text that the value is. -/
def text? (r : Reading) : Option String :=
  match r.node with
  | .text s => some s
  | _ => none

/-- The truth value that the value is. -/
def bool? (r : Reading) : Option Bool :=
  match r.node with
  | .bool b => some b
  | _ => none

/-- The scalar that the value is. -/
def scalar? (r : Reading) : Option Scalar := r.node.scalar?

/-- The items of an array, each read by `f`. -/
def list? (f : Reading → Option α) (r : Reading) : Option (List α) :=
  match r.node with
  | .array items => items.mapM f
  | _ => none

/-- The members of an object, each value read by `f`, repeated keys kept. -/
def fields? (f : Reading → Option α) (r : Reading) : Option (List (String × α)) :=
  match r.node with
  | .object members => members.mapM fun (k, v) => (f v).map (k, ·)
  | _ => none

/-- A word of a vocabulary: its text, or an object with the word as its only key and null as the
value. -/
def word? (vocabulary : String → Option α) (r : Reading) : Option α :=
  match r.node with
  | .text s => vocabulary s
  | .object [(k, v)] => if v.isNull then vocabulary k else none
  | _ => none

/-- The item of a compound: text is a token, and all else an expression. -/
def item (r : Reading) : Item :=
  match r.text? with
  | some t => .token t
  | none => .expr r.expr

end Reading

/-- A member that must be there. -/
def required? (f : Reading → Option α) (member : Option Reading) : Option α := member.bind f

/-- A member that may be missing or null. -/
def optional? (f : Reading → Option α) : Option Reading → Option (Option α)
  | none => some none
  | some r => if r.isNull then some none else (f r).map some

/-- A member that may be missing, but not null. -/
def default? (default : α) (f : Reading → Option α) : Option Reading → Option α
  | none => some default
  | some r => f r

/-- A reference. -/
def Ref.ofNode? (node : Node Reading) : Option Ref := do
  match ← node.record? ["ref", "as", "cast", "param"] 3 with
  | [path, label, cast, param] =>
    some {
      path := ← required? (Reading.list? Reading.text?) path
      label := ← optional? Reading.text? label
      cast := ← optional? Reading.text? cast
      param := ← default? false Reading.bool? param }
  | _ => none

/-- A value in an object of its own. -/
def Scalar.ofNode? (node : Node Reading) : Option Scalar := do
  match ← node.record? ["val"] 1 with
  | [val] => required? Reading.scalar? val
  | _ => none

/-- A compound expression. -/
def Item.listOfNode? (node : Node Reading) : Option (List Item) := do
  match ← node.record? ["xpr"] 1 with
  | [xpr] => required? (Reading.list? fun r => some r.item) xpr
  | _ => none

/-- A list of expressions. -/
def Expr.listOfNode? (node : Node Reading) : Option (List Expr) := do
  match ← node.record? ["list"] 1 with
  | [items] => required? (Reading.list? fun r => some r.expr) items
  | _ => none

/-- A function call. -/
def Call.ofNode? (node : Node Reading) : Option Call := do
  match ← node.record? ["func", "args", "as", "cast"] 4 with
  | [func, args, label, cast] =>
    some {
      name := ← required? Reading.text? func
      args := ← default? [] (Reading.list? fun r => some r.expr) args
      label := ← optional? Reading.text? label
      cast := ← optional? Reading.text? cast }
  | _ => none

/-- The keys of a select, in order. -/
def Select.keys : List String :=
  ["from", "columns", "where", "groupBy", "having", "orderBy", "limit", "distinct"]

/-- A select without its keyword. -/
def Select.ofNode? (node : Node Reading) : Option Select := do
  match ← node.record? Select.keys 7 with
  | [source, columns, filter, groupBy, having, orderBy, limit, distinct] =>
    some {
      source := ← optional? (fun r => some r.source) source
      columns := ← optional? (Reading.list? fun r => some r.column) columns
      filter := ← optional? (fun r => some r.expr) filter
      groupBy := ← optional? (Reading.list? fun r => some r.expr) groupBy
      having := ← optional? (fun r => some r.expr) having
      orderBy := ← optional? (Reading.list? Reading.order) orderBy
      limit := ← optional? Reading.limit limit
      distinct := ← default? false Reading.bool? distinct }
  | _ => none

/-- A select under its keyword, and its alias. -/
def Select.nestedOfNode? (node : Node Reading) : Option (Select × Option String) := do
  match ← node.record? ["SELECT", "as"] 2 with
  | [select, label] =>
    some (← required? Reading.select select, ← optional? Reading.text? label)
  | _ => none

/-- A select without its keyword in the place of an expression: an object that has at least the keys
`from` and `columns`. -/
def Select.bareOfNode? (node : Node Reading) : Option Select :=
  match node with
  | .object members =>
    if members.any (·.1 = "from") ∧ members.any (·.1 = "columns") then Select.ofNode? node
    else none
  | _ => none

/-- A join. -/
def Join.ofNode? (node : Node Reading) : Option Join := do
  match ← node.record? ["join", "args", "on", "as"] 4 with
  | [join, args, on, label] =>
    some {
      kind := ← required? (Reading.word? JoinKind.ofName?) join
      args := ← default? [] (Reading.list? fun r => some r.source) args
      on := ← optional? (fun r => some r.expr) on
      label := ← optional? Reading.text? label }
  | _ => none

/-- A limit. -/
def Limit.ofNode? (node : Node Reading) : Option Limit := do
  match ← node.record? ["rows", "offset"] 2 with
  | [rows, offset] =>
    some {
      rows := ← required? (fun r => some r.expr) rows
      offset := ← optional? (fun r => some r.expr) offset }
  | _ => none

/-- The mark of a wildcard column. -/
def Column.starOfNode? (node : Node Reading) : Option Bool := do
  match ← node.record? ["*"] 1 with
  | [star] => required? Reading.bool? star
  | _ => none

/-- The expression on a layer. A select without its keyword is read from `settled`, the layer whose
repeated keys are settled at every depth. -/
def Expr.ofNode (node settled : Node Reading) : Expr :=
  ((Ref.ofNode? node).map Expr.ref
    <|> (Scalar.ofNode? node).map Expr.val
    <|> (Item.listOfNode? node).map Expr.compound
    <|> (Expr.listOfNode? node).map Expr.list
    <|> (Call.ofNode? node).map Expr.call
    <|> (Select.nestedOfNode? node).map (fun (s, label) => Expr.select s label)
    <|> (Select.bareOfNode? settled).map Expr.bareSelect).getD .other

/-- The source on a layer. -/
def Source.ofNode (node : Node Reading) : Source :=
  ((Ref.ofNode? node).map Source.ref
    <|> (Join.ofNode? node).map Source.join
    <|> (Select.nestedOfNode? node).map (fun (s, label) => Source.select s label)).getD .other

/-- The column on a layer. -/
def Column.ofNode (node : Node Reading) : Column :=
  ((Column.starOfNode? node).map Column.wildcard
    <|> (Ref.ofNode? node).map Column.ref
    <|> (Call.ofNode? node).map Column.call).getD .other

/-- A layer without the members that an order has besides its expression. -/
def Node.withoutOrder : Node α → Node α
  | .object members => .object (members.filter fun m => m.1 ≠ "sort" ∧ m.1 ≠ "nulls")
  | node => node

/-- An item of an order: the members of its expression, and those of the order itself. -/
def Order.ofNode? (node settled : Node Reading) : Option Order :=
  match node with
  | .object members => do
    some {
      expr := Expr.ofNode node.withoutOrder settled.withoutOrder
      direction := ← default? .asc (Reading.word? Direction.ofName?) (← member? "sort" members)
      nulls := ← optional? (Reading.word? NullsOrder.ofName?) (← member? "nulls" members) }
  | _ => none

/-- The reading of a layer whose repeated keys are kept, given also the layer on which they are
settled at every depth. -/
def Reading.ofNode (node settled : Node Reading) : Reading where
  node := node
  value := (settled.map Reading.value).toJson
  expr := Expr.ofNode node settled
  source := Source.ofNode node
  column := Column.ofNode node
  select := Select.ofNode? node
  order := Order.ofNode? node settled
  limit := Limit.ofNode? node

namespace Json

/-- The reading of a value, of every repeated key only the last value. -/
def reading : Json → Reading :=
  fold fun node => Reading.ofNode node.settle node.settle

/-- The reading of a value as it is written, and its reading with repeated keys settled. -/
def readings : Json → Reading × Reading :=
  fold fun node =>
    let settled := (node.map Prod.snd).settle
    (Reading.ofNode (node.map Prod.fst) settled, Reading.ofNode settled settled)

/-- The reading of a value as it is written, repeated keys kept. -/
def writtenReading (v : Json) : Reading := v.readings.1

end Json

end QueryNotation
