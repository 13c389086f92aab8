/-! Binary floating point with a mantissa of 53 bits: the number nearest to a decimal one, by exact
arithmetic on natural numbers. -/

namespace QueryNotation

/-- The number `mantissa * 2 ^ exponent`. A mantissa of less than 53 bits comes only with the least
exponent, -1074. -/
structure Binary where
  mantissa : Nat
  exponent : Int
deriving DecidableEq, Repr

namespace Binary

/-- The exponent of the least positive number. -/
def leastExponent : Int := -1074

/-- The greatest exponent. -/
def greatestExponent : Int := 971

/-- Zero. -/
def zero : Binary := ⟨0, leastExponent⟩

/-- The quotient rounded to the nearest integer, a half to the even one. -/
def roundDiv (num den : Nat) : Nat :=
  let quotient := num / den
  let remainder := num % den
  if 2 * remainder < den then quotient
  else if den < 2 * remainder then quotient + 1
  else quotient + quotient % 2

/-- The exponent that gives `num / den` a mantissa of 53 bits, or the least exponent if that one is
smaller. -/
def exponentOf (num den : Nat) : Int :=
  let e : Int := num.log2 - den.log2 - 52
  let fits := den * Nat.pow 2 (52 + e).toNat ≤ num * Nat.pow 2 (-(52 + e)).toNat
  max leastExponent (if fits then e else e - 1)

/-- The number nearest to `num / den`, a half going to the even mantissa; none beyond the greatest
number. -/
def ofQuotient? (num den : Nat) : Option Binary :=
  let e := exponentOf num den
  let m := roundDiv (num * Nat.pow 2 (-e).toNat) (den * Nat.pow 2 e.toNat)
  let rounded : Binary := if m = Nat.pow 2 53 then ⟨Nat.pow 2 52, e + 1⟩ else ⟨m, e⟩
  if rounded.exponent ≤ greatestExponent then some rounded else none

/-- The number nearest to `n * 10 ^ e`; none beyond the greatest number. A number of more than 310
digits before the point is too great, and one with 330 zeros after it rounds to zero. -/
def nearest? (n : Nat) (e : Int) : Option Binary :=
  if n = 0 then some zero
  else
    let size : Int := (Nat.toDigits 10 n).length + e
    if 310 < size then none
    else if size < -330 then some zero
    else ofQuotient? (n * Nat.pow 10 e.toNat) (Nat.pow 10 (-e).toNat)

end Binary

end QueryNotation
