import QueryNotation.Number

/-! The tokens of JSON text, found by a machine that takes one character at a time. A text token
whose escapes name half a pair of surrogates and a number too great for a double are tokens, but
without a value. -/

namespace QueryNotation.Json

/-- A token of JSON text. -/
inductive Token where
  | openArray
  | closeArray
  | openObject
  | closeObject
  | comma
  | colon
  | null
  | bool (b : Bool)
  | number (n : Option Number)
  | text (s : Option String)
deriving Repr

/-- A unit of quoted text: a character, or a code that is half a pair of surrogates. -/
inductive TextUnit where
  | char (c : Char)
  | half (code : Nat)
deriving Repr

/-- The unit that an escape with this code stands for. -/
def TextUnit.ofCode (code : Nat) : TextUnit :=
  if 0xD800 ≤ code ∧ code < 0xE000 then .half code else .char (Char.ofNat code)

/-- The characters that units stand for: two halves in the right order make one character. -/
def TextUnit.join? : List TextUnit → Option (List Char)
  | [] => some []
  | .char c :: units => (join? units).map (c :: ·)
  | .half high :: .half low :: units =>
    if high < 0xDC00 ∧ 0xDC00 ≤ low then
      (join? units).map (Char.ofNat (0x10000 + (high - 0xD800) * 0x400 + (low - 0xDC00)) :: ·)
    else none
  | .half _ :: _ => none

/-- Where the machine stands. Characters and units read so far are kept last first. -/
inductive Mode where
  /-- Between tokens. -/
  | between
  /-- In a number or a word. -/
  | run (chars : List Char)
  /-- In quoted text. -/
  | text (units : List TextUnit)
  /-- After a backslash in quoted text. -/
  | escape (units : List TextUnit)
  /-- In the four digits of an escape: how many are missing, and the value so far. -/
  | code (units : List TextUnit) (missing : Nat) (value : Nat)

/-- The tokens found so far, last first, and where the machine stands. -/
structure Lexer where
  tokens : List Token
  mode : Mode

namespace Token

/-- The tokens of one character. -/
def ofChar? (c : Char) : Option Token :=
  match c with
  | '[' => some .openArray
  | ']' => some .closeArray
  | '\x7b' => some .openObject
  | '\x7d' => some .closeObject
  | ',' => some .comma
  | ':' => some .colon
  | _ => none

/-- The token of a run of letters, digits and signs. -/
def ofRun? (chars : List Char) : Option Token :=
  match String.ofList chars with
  | "null" => some .null
  | "true" => some (.bool true)
  | "false" => some (.bool false)
  | _ => (Number.Literal.read? chars).map fun literal => .number literal.number?

/-- The token of quoted text, from its units, last first. -/
def ofUnits (units : List TextUnit) : Token :=
  .text ((TextUnit.join? units.reverse).map String.ofList)

end Token

namespace Lexer

/-- Whether `c` is blank between tokens. -/
def isBlank (c : Char) : Bool := c = ' ' || c = '\t' || c = '\n' || c = '\r'

/-- Whether `c` belongs to a number or a word. -/
def isRun (c : Char) : Bool := c.isAlphanum || c = '+' || c = '-' || c = '.'

/-- The character that an escape of one character stands for. -/
def escaped? (c : Char) : Option Char :=
  match c with
  | '"' => some '"'
  | '\\' => some '\\'
  | '/' => some '/'
  | 'b' => some '\x08'
  | 'f' => some '\x0c'
  | 'n' => some '\n'
  | 'r' => some '\r'
  | 't' => some '\t'
  | _ => none

/-- The value of a hexadecimal digit. -/
def hexDigit? (c : Char) : Option Nat :=
  if c.isDigit then some (c.toNat - '0'.toNat)
  else if 'a' ≤ c ∧ c ≤ 'f' then some (c.toNat - 'a'.toNat + 10)
  else if 'A' ≤ c ∧ c ≤ 'F' then some (c.toNat - 'A'.toNat + 10)
  else none

/-- The step on `c` between tokens. -/
def start (tokens : List Token) (c : Char) : Option Lexer :=
  if isBlank c then some ⟨tokens, .between⟩
  else if c = '"' then some ⟨tokens, .text []⟩
  else if isRun c then some ⟨tokens, .run [c]⟩
  else (Token.ofChar? c).map fun token => ⟨token :: tokens, .between⟩

/-- The step on `c`. A character that cannot go on with a run ends it. -/
def step (l : Lexer) (c : Char) : Option Lexer :=
  match l.mode with
  | .between => start l.tokens c
  | .run chars =>
    if isRun c then some { l with mode := .run (c :: chars) }
    else (Token.ofRun? chars.reverse).bind fun token => start (token :: l.tokens) c
  | .text units =>
    if c = '"' then some ⟨Token.ofUnits units :: l.tokens, .between⟩
    else if c = '\\' then some { l with mode := .escape units }
    else if c < ' ' then none
    else some { l with mode := .text (.char c :: units) }
  | .escape units =>
    if c = 'u' then some { l with mode := .code units 4 0 }
    else (escaped? c).map fun d => { l with mode := .text (.char d :: units) }
  | .code units missing value =>
    (hexDigit? c).map fun d =>
      if missing ≤ 1 then { l with mode := .text (.ofCode (16 * value + d) :: units) }
      else { l with mode := .code units (missing - 1) (16 * value + d) }

/-- The tokens at the end of the text. -/
def finish? (l : Lexer) : Option (List Token) :=
  match l.mode with
  | .between => some l.tokens.reverse
  | .run chars => (Token.ofRun? chars.reverse).map fun token => (token :: l.tokens).reverse
  | _ => none

end Lexer

/-- The tokens of a text. -/
def tokens? (s : String) : Option (List Token) :=
  (s.toList.foldlM Lexer.step ⟨[], .between⟩).bind Lexer.finish?

end QueryNotation.Json
