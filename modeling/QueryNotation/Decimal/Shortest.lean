import QueryNotation.Decimal.Basic
import QueryNotation.Decimal.Nearest

/-! The shortest decimal that reads back to a binary number. The decimals that read back to it form
an interval; on each grid of decimals, from one digit upwards, the two neighbours of the number are
tried, so the first grid with a decimal in the interval gives the fewest digits. -/

namespace QueryNotation.Binary

/-- Compares `c * 10 ^ k` with `x * 2 ^ p`. -/
def comparePower (c : Nat) (k : Int) (x : Nat) (p : Int) : Ordering :=
  compare (c * Nat.pow 10 k.toNat * Nat.pow 2 (-p).toNat)
    (x * Nat.pow 2 p.toNat * Nat.pow 10 (-k).toNat)

/-- Whether `c * 10 ^ k` reads back to `b`: it lies between the points halfway to the neighbours of
`b`, and the ends belong to the interval of an even mantissa. -/
def readsBack (b : Binary) (c : Nat) (k : Int) : Bool :=
  let below := if b.mantissa = Nat.pow 2 52 ∧ leastExponent < b.exponent then 1 else 2
  let low := comparePower c k (4 * b.mantissa - below) (b.exponent - 2)
  let high := comparePower c k (4 * b.mantissa + 2) (b.exponent - 2)
  if b.mantissa % 2 = 0 then low.isGE && high.isLE else low.isGT && high.isLT

/-- The power of ten of the first digit of `b`. -/
def firstPower (b : Binary) : Int :=
  let guess := ((b.mantissa.log2 : Int) + b.exponent) * 30103 / 100000
  if (comparePower 1 (guess + 1) b.mantissa b.exponent).isLE then guess + 1
  else if (comparePower 1 guess b.mantissa b.exponent).isLE then guess
  else guess - 1

/-- The greatest multiple of `10 ^ k` not above `b`, in units of `10 ^ k`. -/
def floorAt (b : Binary) (k : Int) : Nat :=
  b.mantissa * Nat.pow 2 b.exponent.toNat * Nat.pow 10 (-k).toNat /
    (Nat.pow 2 (-b.exponent).toNat * Nat.pow 10 k.toNat)

/-- The decimal in units of `10 ^ k` that reads back to `b`, if there is one: of two the nearer, and
of two equally near the even one. -/
def candidateAt? (b : Binary) (k : Int) : Option Nat :=
  let c := floorAt b k
  match readsBack b c k, readsBack b (c + 1) k with
  | false, false => none
  | true, false => some c
  | false, true => some (c + 1)
  | true, true =>
    match comparePower (2 * c + 1) k (2 * b.mantissa) b.exponent with
    | .gt => some c
    | .lt => some (c + 1)
    | .eq => some (c + c % 2)

/-- The decimal with the fewest digits that reads back to `b`; seventeen digits always suffice. -/
def shortest (negative : Bool) (b : Binary) : Decimal :=
  if b.mantissa = 0 then Decimal.make negative 0 0
  else
    let k := firstPower b
    let hit := (List.range 17).findSome? fun (j : Nat) =>
      (candidateAt? b (k - j)).map fun c => (c, k - j)
    match hit with
    | some (c, e) => Decimal.make negative c e
    | none => Decimal.make negative (floorAt b (k - 17)) (k - 17)

end QueryNotation.Binary
