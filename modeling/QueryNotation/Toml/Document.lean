import QueryNotation.Toml.Basic
import QueryNotation.Toml.Scalar
import QueryNotation.Toml.Text

/-! Reading TOML documents. -/

namespace QueryNotation.Toml

/-- How deep arrays and inline tables may be nested, and how many parts a dotted key may have. -/
def nestingLimit : Nat := 79

namespace Reader

/-- Whether `c` may stand in a key without quotes. -/
def isKeyChar (c : Char) : Bool := c.isAlphanum || c = '_' || c = '-'

/-- A part of a key. -/
def simpleKey : Reader String :=
  basicText <|> literalText <|> (do
    let first ← satisfy isKeyChar
    return String.ofList (first :: (← takeWhile isKeyChar)))

/-- A key: the parts before its last one, and the last one. -/
def key : Reader (List String × String) := do
  let parts ← separated (do
    blanks
    let part ← simpleKey
    blanks
    return part) (char '.')
  match parts.getLast? with
  | some last => if parts.length ≤ nestingLimit then return (parts.dropLast, last) else failure
  | none => failure

/-- An array of values. -/
def array (value : Reader Value) : Reader Value := do
  char '['
  let items ← optional (do
    let items ← separated (do
      blankLines
      let v ← value
      blankLines
      return v) (char ',')
    let _ ← optional (char ',')
    return items)
  blankLines
  char ']'
  return .array (items.getD [])

/-- A table on one line. -/
def inlineTable (value : Reader Value) : Reader Value := do
  char '\x7b'
  let members ← optional (separated (do
    let (path, last) ← key
    char '='
    blanks
    let v ← value
    blanks
    return (path, last, v)) (char ','))
  blanks
  char '\x7d'
  match Table.ofMembers? (members.getD []) with
  | some t => return .inline t
  | none => failure

/-- A value nested at most `depth` deep. -/
def value : Nat → Reader Value
  | 0 => (.text <$> text) <|> (do plain; return .plain)
  | depth + 1 => (.text <$> text) <|> (do plain; return .plain) <|> array (value depth) <|>
      inlineTable (value depth)

/-- A line with a value. -/
def memberLine : Reader Line := do
  let (path, last) ← key
  char '='
  blanks
  let v ← value nestingLimit
  lineEnd
  return .member path last v

/-- The header of an array of tables. -/
def arrayHeaderLine : Reader Line := do
  word "[["
  let (path, last) ← key
  word "]]"
  lineEnd
  return .arrayHeader path last

/-- The header of a table. -/
def headerLine : Reader Line := do
  char '['
  let (path, last) ← key
  char ']'
  lineEnd
  return .header path last

/-- A line with nothing but blanks and a comment. -/
def blankLine : Reader Line :=
  (do comment; newline <|> atEnd; return .blank) <|> (do newline; return .blank)

/-- A line. -/
def line : Reader Line := do
  blanks
  blankLine <|> arrayHeaderLine <|> headerLine <|> memberLine

/-- The lines of a document. -/
def document : Reader (List Line) := do
  let lines ← many line
  blanks
  atEnd
  return lines

end Reader

/-- The text without a byte order mark at its start. -/
def withoutMark : List Char → List Char
  | '\ufeff' :: cs => cs
  | cs => cs

/-- The table that a TOML text writes. -/
def ofText? (s : String) : Option Table := do
  let (lines, _) ← Reader.document (withoutMark s.toList)
  Document.ofLines? lines

end QueryNotation.Toml
