import QueryNotation.Json.Basic
import QueryNotation.Json.Token

/-! The draft of a JSON value: what a text says by the rules of its form alone. A draft may hold
text and numbers without a value, and be nested to any depth. It is built by a machine that takes
one token at a time and keeps the arrays and objects that are still open. -/

namespace QueryNotation.Json

/-- What a JSON text says. -/
inductive Draft where
  | null
  | bool (b : Bool)
  | number (n : Option Number)
  | text (s : Option String)
  | array (items : List Draft)
  | object (members : List (Option String × Draft))

/-- An open array or object: the parts read so far, last first, and the key of the member that is
being read. -/
inductive Frame where
  | array (items : List Draft)
  | object (members : List (Option String × Draft)) (key : Option String)

/-- What may come next. -/
inductive Expected where
  | value
  | valueOrClose
  | key
  | keyOrClose
  | colon
  | separator
deriving DecidableEq

/-- A value that is being built, or one that is complete. -/
inductive Building where
  | pending (frames : List Frame) (next : Expected)
  | done (draft : Draft)

namespace Building

/-- The state after a value, which goes into the innermost open array or object. -/
def put (draft : Draft) : List Frame → Building
  | [] => .done draft
  | .array items :: frames => .pending (.array (draft :: items) :: frames) .separator
  | .object members key :: frames =>
    .pending (.object ((key, draft) :: members) key :: frames) .separator

/-- The state after the first token of a value. -/
def begin? (frames : List Frame) : Token → Option Building
  | .openArray => some (.pending (.array [] :: frames) .valueOrClose)
  | .openObject => some (.pending (.object [] none :: frames) .keyOrClose)
  | .null => some (put .null frames)
  | .bool b => some (put (.bool b) frames)
  | .number n => some (put (.number n) frames)
  | .text s => some (put (.text s) frames)
  | _ => none

/-- The state after a closing bracket, which must fit the innermost open one. -/
def close? : List Frame → Token → Option Building
  | .array items :: frames, .closeArray => some (put (.array items.reverse) frames)
  | .object members _ :: frames, .closeObject => some (put (.object members.reverse) frames)
  | _, _ => none

/-- The state after a key. -/
def key? : List Frame → Token → Option Building
  | .object members _ :: frames, .text key => some (.pending (.object members key :: frames) .colon)
  | _, _ => none

/-- The state after a comma. -/
def comma? : List Frame → Option Building
  | .array items :: frames => some (.pending (.array items :: frames) .value)
  | .object members key :: frames => some (.pending (.object members key :: frames) .key)
  | [] => none

/-- The step on a token. -/
def step : Building → Token → Option Building
  | .done _, _ => none
  | .pending frames next, token =>
    match next, token with
    | .value, token => begin? frames token
    | .valueOrClose, .closeArray => close? frames .closeArray
    | .valueOrClose, token => begin? frames token
    | .key, token => key? frames token
    | .keyOrClose, .closeObject => close? frames .closeObject
    | .keyOrClose, token => key? frames token
    | .colon, .colon => some (.pending frames .value)
    | .colon, _ => none
    | .separator, .comma => comma? frames
    | .separator, token => close? frames token

end Building

/-- The draft that tokens write. -/
def Draft.ofTokens? (tokens : List Token) : Option Draft :=
  match tokens.foldlM Building.step (.pending [] .value) with
  | some (.done draft) => some draft
  | _ => none

/-- The draft that a text writes. -/
def Draft.ofText? (s : String) : Option Draft :=
  (tokens? s).bind Draft.ofTokens?

end QueryNotation.Json
