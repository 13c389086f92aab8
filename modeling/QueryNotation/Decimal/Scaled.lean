import QueryNotation.Decimal.Nearest

/-! Scaling by powers of ten in binary floating point. Every step is rounded on its own, so a scaled
number may lie beside the one that is nearest to the decimal, and it may be too great where that one
is not. -/

namespace QueryNotation.Binary

/-- The product, rounded; none beyond the greatest number. -/
def mul? (a b : Binary) : Option Binary :=
  if a.mantissa = 0 then some zero
  else
    let e := a.exponent + b.exponent
    ofQuotient? (a.mantissa * b.mantissa * Nat.pow 2 e.toNat) (Nat.pow 2 (-e).toNat)

/-- The quotient, rounded; none beyond the greatest number. -/
def div? (a b : Binary) : Option Binary :=
  if a.mantissa = 0 then some zero
  else
    let e := a.exponent - b.exponent
    ofQuotient? (a.mantissa * Nat.pow 2 e.toNat) (b.mantissa * Nat.pow 2 (-e).toNat)

/-- The power of ten of the greatest number. -/
def greatestPower : Nat := 308

/-- `a / 10 ^ k`. Where `10 ^ k` is too great, the greatest power of ten is divided out first, as
long as something is left. -/
def divPower? (a : Binary) (k : Nat) : Option Binary :=
  if k ≤ greatestPower then do a.div? (← nearest? 1 k)
  else if a.mantissa = 0 then some a
  else do divPower? (← a.div? (← nearest? 1 greatestPower)) (k - greatestPower)
termination_by k
decreasing_by
  simp only [greatestPower] at *
  omega

/-- `a * 10 ^ e`; none beyond the greatest number. -/
def scale? (a : Binary) (e : Int) : Option Binary :=
  if e < 0 then a.divPower? e.natAbs
  else if e ≤ greatestPower then do a.mul? (← nearest? 1 e)
  else if a.mantissa = 0 then some a
  else none

end QueryNotation.Binary
