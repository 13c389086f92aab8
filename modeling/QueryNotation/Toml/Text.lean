import QueryNotation.Toml.Reader

/-! Blanks, comments and quoted text in TOML. -/

namespace QueryNotation.Toml

/-- Whether `c` is blank within a line. -/
def isBlank (c : Char) : Bool := c = ' ' || c = '\t'

/-- Whether `c` may stand in comments and quoted text: anything but control characters, a tab
excepted. -/
def isPrinted (c : Char) : Bool := c = '\t' || (0x20 ≤ c.toNat && c.toNat ≠ 0x7F)

/-- The quote character of literal text. -/
def literalQuote : Char := '\x27'

/-- Whether a character stands for itself in basic text. -/
def isBasic (c : Char) : Bool := isPrinted c && c ≠ '"' && c ≠ '\\'

/-- Whether a character stands for itself in literal text. -/
def isLiteral (c : Char) : Bool := isPrinted c && c ≠ literalQuote

namespace Reader

/-- Blanks within a line. -/
def blanks : Reader Unit := do
  let _ ← takeWhile isBlank

/-- The end of a line. -/
def newline : Reader Unit := char '\n' <|> word "\r\n"

/-- A comment, up to the end of its line. -/
def comment : Reader Unit := do
  char '#'
  let _ ← takeWhile isPrinted

/-- Blanks, a comment and the end of a line or of the text. -/
def lineEnd : Reader Unit := do
  blanks
  let _ ← optional comment
  newline <|> atEnd

/-- Blanks, comments and ends of lines. -/
def blankLines : Reader Unit := do
  let _ ← many ((do let _ ← satisfy isBlank) <|> newline <|> (do comment; newline))

/-- The value of a hexadecimal digit. -/
def hexDigit : Reader Nat := do
  let c ← any
  if c.isDigit then return c.toNat - '0'.toNat
  else if 'a' ≤ c ∧ c ≤ 'f' then return c.toNat - 'a'.toNat + 10
  else if 'A' ≤ c ∧ c ≤ 'F' then return c.toNat - 'A'.toNat + 10
  else failure

/-- The character with a code of `n` hexadecimal digits. -/
def codePoint (n : Nat) : Reader Char := do
  let code := (← times hexDigit n).foldl (fun value digit => 16 * value + digit) 0
  if code < 0xD800 ∨ (0xE000 ≤ code ∧ code < 0x110000) then return Char.ofNat code else failure

/-- What follows the backslash of an escape. -/
def escape : Reader Char := do
  match ← any with
  | 'b' => return '\x08'
  | 't' => return '\t'
  | 'n' => return '\n'
  | 'f' => return '\x0c'
  | 'r' => return '\r'
  | '"' => return '"'
  | '\\' => return '\\'
  | 'u' => codePoint 4
  | 'U' => codePoint 8
  | _ => failure

/-- A character of basic text. -/
def basicChar : Reader Char :=
  satisfy isBasic <|> (do char '\\'; escape)

/-- Basic text on one line. -/
def basicText : Reader String := do
  char '"'
  let cs ← many basicChar
  char '"'
  return String.ofList cs

/-- Literal text on one line. -/
def literalText : Reader String := do
  char literalQuote
  let cs ← takeWhile isLiteral
  char literalQuote
  return String.ofList cs

/-- A backslash at the end of a line, with the blanks and line ends after it. -/
def lineContinuation : Reader Unit := do
  char '\\'
  blanks
  newline
  let _ ← many ((do let _ ← satisfy isBlank) <|> newline)

/-- A part of basic text on several lines, without quotes. -/
def basicPart : Reader (List Char) :=
  (do lineContinuation; return []) <|> (do newline; return ['\n']) <|>
    (do return [← basicChar])

/-- A part of literal text on several lines, without quotes. -/
def literalPart : Reader (List Char) :=
  (do newline; return ['\n']) <|> (do return [← satisfy isLiteral])

/-- Parts of text up to three quotes. One or two quotes may stand between parts and before the
closing ones. -/
def upToQuotes (quote : Char) (part : Reader (List Char)) : Nat → Reader (List Char)
  | 0 => failure
  | n + 1 => do
    let quotes ← takeWhile (· = quote)
    if 5 < quotes.length then failure
    else if 3 ≤ quotes.length then return quotes.drop 3
    else do
      let cs ← part
      return quotes ++ cs ++ (← upToQuotes quote part n)

/-- Text on several lines between three quotes each; an end of line right after the opening ones
does not belong to it. -/
def longText (quote : Char) (part : Reader (List Char)) : Reader String := do
  let _ ← times (char quote) 3
  let _ ← optional newline
  let cs ← fun (cs : List Char) => upToQuotes quote part (cs.length + 1) cs
  return String.ofList cs

/-- Quoted text. -/
def text : Reader String :=
  longText '"' basicPart <|> basicText <|> longText literalQuote literalPart <|> literalText

end Reader

end QueryNotation.Toml
