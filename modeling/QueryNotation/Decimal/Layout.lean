import QueryNotation.Decimal.Basic

/-! The written form of a decimal: positional while the power of its first digit lies in a range,
and with a power of ten otherwise. -/

namespace QueryNotation

/-- How decimals are written: the least and the greatest power of the first digit that is written
positionally, the mark before an exponent and the sign of a positive one. -/
structure Layout where
  least : Int
  greatest : Int
  mark : String
  plus : String
deriving Repr

namespace Decimal

/-- The digits, first to last. -/
def digitList (d : Decimal) : List Char := Nat.toDigits 10 d.digits

/-- The power of ten of the first digit. -/
def firstPower (d : Decimal) : Int := d.exponent + d.digitList.length - 1

/-- The digits with a point in its place; a whole number ends in `.0`. -/
def positional (d : Decimal) : List Char :=
  let ds := d.digitList
  if 0 ≤ d.exponent then ds ++ List.replicate d.exponent.toNat '0' ++ ['.', '0']
  else if 0 ≤ d.firstPower then
    let whole := d.firstPower.toNat + 1
    ds.take whole ++ '.' :: ds.drop whole
  else '0' :: '.' :: List.replicate (-d.firstPower - 1).toNat '0' ++ ds

/-- One digit before the point, the others after it, and the power of ten. -/
def scientific (l : Layout) (d : Decimal) : List Char :=
  let ds := d.digitList
  let rest := ds.drop 1
  let point := if rest.isEmpty then [] else '.' :: rest
  let sign := if d.firstPower < 0 then ['-'] else l.plus.toList
  ds.take 1 ++ point ++ l.mark.toList ++ sign ++ Nat.toDigits 10 d.firstPower.natAbs

/-- The text of `d` under the layout. -/
def text (l : Layout) (d : Decimal) : String :=
  let sign := if d.negative then ['-'] else []
  let body :=
    if l.least ≤ d.firstPower ∧ d.firstPower ≤ l.greatest then d.positional else d.scientific l
  String.ofList (sign ++ body)

end Decimal

end QueryNotation
