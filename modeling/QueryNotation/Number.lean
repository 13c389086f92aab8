import QueryNotation.Decimal.Layout
import QueryNotation.Decimal.Scaled
import QueryNotation.Decimal.Shortest

/-! Numbers as they are written in JSON. A whole number of 64 bits is kept as it is. Any other
number stands for a binary number, and is kept as the shortest decimal that reads back to that one:
its first digits, as many as 64 bits hold, are scaled by a power of ten. -/

namespace QueryNotation

/-- A number of a query. -/
inductive Number where
  | integer (n : Int)
  | double (d : Decimal)
deriving DecidableEq, Repr

namespace Number

/-- Doubles are written positionally from 0.00001 to below 10^16, and with `e+` or `e-` beyond. -/
def layout : Layout := ⟨-5, 15, "e", "+"⟩

/-- The text of a number. -/
def text : Number → String
  | .integer n => toString n
  | .double d => d.text layout

/-- A number as written: sign, digits before and after the point, exponent. -/
structure Literal where
  negative : Bool
  whole : List Char
  fraction : Option (List Char)
  exponent : Option Int

/-- The double `±n * 10 ^ e`, unless it is too great. -/
def scaled? (negative : Bool) (n : Nat) (e : Int) : Option Number := do
  let b ← (← Binary.nearest? n 0).scale? e
  return .double (b.shortest negative)

namespace Literal

/-- Splits a leading minus sign off. -/
def readSign : List Char → Bool × List Char
  | '-' :: cs => (true, cs)
  | cs => (false, cs)

/-- The digits before the point: a zero alone, or digits that start with another digit. -/
def readWhole? (cs : List Char) : Option (List Char × List Char) :=
  match cs with
  | '0' :: rest => some (['0'], rest)
  | _ =>
    let ds := cs.takeWhile Char.isDigit
    if ds.isEmpty then none else some (ds, cs.dropWhile Char.isDigit)

/-- A point with at least one digit after it, if there is a point. -/
def readFraction? : List Char → Option (Option (List Char) × List Char)
  | '.' :: cs =>
    let ds := cs.takeWhile Char.isDigit
    if ds.isEmpty then none else some (some ds, cs.dropWhile Char.isDigit)
  | cs => some (none, cs)

/-- The digits of an exponent with its sign, up to the end of the text. -/
def readPower? (cs : List Char) : Option Int :=
  let (negative, ds) := match cs with
    | '-' :: ds => (true, ds)
    | '+' :: ds => (false, ds)
    | ds => (false, ds)
  if ds.isEmpty || !ds.all Char.isDigit then none
  else
    let n := Nat.ofDigitChars 10 ds 0
    some (if negative then -(n : Int) else n)

/-- An exponent up to the end of the text, or the end of the text. -/
def readExponent? : List Char → Option (Option Int)
  | [] => some none
  | c :: cs => if c = 'e' ∨ c = 'E' then (readPower? cs).map some else none

/-- Reads a number written by the rules of JSON. -/
def read? (cs : List Char) : Option Literal := do
  let (negative, cs) := readSign cs
  let (whole, cs) ← readWhole? cs
  let (fraction, cs) ← readFraction? cs
  let exponent ← readExponent? cs
  some ⟨negative, whole, fraction, exponent⟩

/-- Appends digits to `n` as long as 64 bits hold it: the number, and the digits that are left. -/
def appendDigits (n : Nat) : List Char → Nat × List Char
  | [] => (n, [])
  | c :: cs =>
    let m := Nat.ofDigitChars 10 [c] n
    if m < Nat.pow 2 64 then appendDigits m cs else (n, c :: cs)

/-- The double `±n * 10 ^ (e + power)`. An exponent beyond 32 bits is not added: it makes the double
too great or zero. -/
def double? (negative : Bool) (n : Nat) (e power : Int) : Option Number :=
  if power.natAbs < Nat.pow 2 31 then scaled? negative n (e + power)
  else if n ≠ 0 ∧ 0 < power then none
  else scaled? negative 0 0

/-- The number that a literal stands for; none where it is too great for a double. -/
def number? (l : Literal) : Option Number :=
  let (n, beyond) := appendDigits 0 l.whole
  match l.fraction, l.exponent, beyond with
  | none, none, [] =>
    if !l.negative then some (.integer n)
    else if 0 < n ∧ n ≤ Nat.pow 2 63 then some (.integer (-(n : Int)))
    else scaled? true n 0
  | fraction, exponent, beyond =>
    let after := fraction.getD []
    let (n, left) := appendDigits n after
    -- Digits that are left before the point count as zeros, those after it do not count.
    let e : Int := beyond.length - (after.length - left.length : Nat)
    double? l.negative n e (exponent.getD 0)

end Literal

/-- The number written by `s`, if it is one. -/
def ofText? (s : String) : Option Number :=
  Literal.read? s.toList >>= Literal.number?

end Number

end QueryNotation
