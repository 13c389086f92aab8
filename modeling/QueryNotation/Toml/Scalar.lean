import QueryNotation.Decimal.Nearest
import QueryNotation.Toml.Reader

/-! Numbers, truth values, dates and times in TOML. Only whether they are well formed matters here.
-/

namespace QueryNotation.Toml

/-- More digits, an underscore allowed before each: the digits, and what follows. -/
def moreDigits (isDigit : Char → Bool) : List Char → List Char × List Char
  | [] => ([], [])
  | '_' :: c :: cs =>
    if isDigit c then
      let (ds, rest) := moreDigits isDigit cs
      (c :: ds, rest)
    else ([], '_' :: c :: cs)
  | c :: cs =>
    if isDigit c then
      let (ds, rest) := moreDigits isDigit cs
      (c :: ds, rest)
    else ([], c :: cs)

/-- The value of a digit in a base up to sixteen. -/
def digitValue (c : Char) : Nat :=
  if c.isDigit then c.toNat - '0'.toNat
  else if 'a' ≤ c then c.toNat - 'a'.toNat + 10
  else c.toNat - 'A'.toNat + 10

/-- Whether `c` is a digit in a base up to sixteen. -/
def isDigitIn (base : Nat) (c : Char) : Bool :=
  (c.isDigit || ('a' ≤ c && c ≤ 'f') || ('A' ≤ c && c ≤ 'F')) && digitValue c < base

/-- The value of digits in a base. -/
def ofDigits (base : Nat) (ds : List Char) : Nat :=
  ds.foldl (fun n c => base * n + digitValue c) 0

namespace Reader

/-- Digits with underscores between them. -/
def digits (base : Nat) : Reader (List Char) := do
  let first ← satisfy (isDigitIn base)
  let rest ← fun cs => some (moreDigits (isDigitIn base) cs)
  return first :: rest

/-- A sign; true for a minus. -/
def sign : Reader Bool := (do char '-'; return true) <|> (do char '+'; return false) <|> pure false

/-- Decimal digits without a leading zero, or a zero alone. -/
def wholeDigits : Reader (List Char) :=
  (do let _ ← peek (satisfy (fun c => '1' ≤ c && c ≤ '9')); digits 10) <|>
    (do char '0'; return ['0'])

/-- The exponent of a number. -/
def exponent : Reader Int := do
  let _ ← satisfy (fun c => c = 'e' || c = 'E')
  let negative ← sign
  let n := ofDigits 10 (← digits 10)
  return if negative then -(n : Int) else n

/-- The digits after a point. -/
def fraction : Reader (List Char) := do
  char '.'
  digits 10

/-- A number with a point or an exponent. One that is too great is refused, unless it is negative.
-/
def decimal : Reader Unit := do
  let negative ← sign
  let whole ← wholeDigits
  let (after, power) ← (do return (← fraction, ← optional exponent)) <|>
    (do return ([], some (← exponent)))
  let n := ofDigits 10 (whole ++ after)
  let tooGreat := (Binary.nearest? n (power.getD 0 - after.length)).isNone
  if tooGreat && !negative then failure

/-- Infinity or no number. -/
def special : Reader Unit := do
  let _ ← sign
  word "inf" <|> word "nan"

/-- A whole number after the mark of its base. -/
def basedInteger (mark : String) (base : Nat) : Reader Unit := do
  word mark
  if Nat.pow 2 63 ≤ ofDigits base (← digits base) then failure

/-- A whole number of 64 bits. -/
def decimalInteger : Reader Unit := do
  let negative ← sign
  let n := ofDigits 10 (← wholeDigits)
  if (if negative then Nat.pow 2 63 else Nat.pow 2 63 - 1) < n then failure

/-- A whole number. -/
def integer : Reader Unit :=
  basedInteger "0x" 16 <|> basedInteger "0o" 8 <|> basedInteger "0b" 2 <|> decimalInteger

/-- A number of `n` decimal digits between two bounds. -/
def fixed (n least greatest : Nat) : Reader Nat := do
  let value := ofDigits 10 (← times (satisfy Char.isDigit) n)
  if least ≤ value ∧ value ≤ greatest then return value else failure

/-- The days of a month. -/
def daysIn (year month : Nat) : Nat :=
  if month = 2 then
    if year % 4 = 0 ∧ (year % 100 ≠ 0 ∨ year % 400 = 0) then 29 else 28
  else if month ∈ [4, 6, 9, 11] then 30
  else 31

/-- A date. -/
def date : Reader Unit := do
  let year ← fixed 4 0 9999
  char '-'
  let month ← fixed 2 1 12
  char '-'
  let _ ← fixed 2 1 (daysIn year month)

/-- A time of day, leap seconds included. -/
def time : Reader Unit := do
  let _ ← fixed 2 0 23
  char ':'
  let _ ← fixed 2 0 59
  char ':'
  let _ ← fixed 2 0 60
  let _ ← optional (do
    char '.'
    let _ ← satisfy Char.isDigit
    takeWhile Char.isDigit)

/-- An offset from universal time. -/
def offset : Reader Unit :=
  (do let _ ← satisfy (fun c => c = 'Z' || c = 'z')) <|> (do
    let _ ← satisfy (fun c => c = '+' || c = '-')
    let _ ← fixed 2 0 23
    char ':'
    let _ ← fixed 2 0 59)

/-- A date, a time, or both. -/
def dateTime : Reader Unit :=
  (do
    date
    let _ ← optional (do
      let _ ← satisfy (fun c => c = 'T' || c = 't' || c = ' ')
      time
      optional offset)) <|> time

/-- A number, a truth value, a date or a time. -/
def plain : Reader Unit :=
  word "true" <|> word "false" <|> dateTime <|> decimal <|> special <|> integer

end Reader

end QueryNotation.Toml
