/-! Decimal numbers: a sign, digits without a trailing zero, and a power of ten. Each number has one
such form, except that zero keeps its sign. -/

namespace QueryNotation

/-- The number `±digits * 10 ^ exponent`. -/
structure Decimal where
  negative : Bool
  digits : Nat
  exponent : Int
  normal : digits % 10 ≠ 0 ∨ (digits = 0 ∧ exponent = 0)
deriving DecidableEq, Repr

namespace Decimal

/-- `n * 10 ^ e` with the trailing zeros of `n` moved to the exponent. -/
def stripZeros (n : Nat) (e : Int) : Nat × Int :=
  if n = 0 then (0, 0)
  else if n % 10 = 0 then stripZeros (n / 10) (e + 1)
  else (n, e)

theorem stripZeros_normal (n : Nat) (e : Int) :
    (stripZeros n e).1 % 10 ≠ 0 ∨ ((stripZeros n e).1 = 0 ∧ (stripZeros n e).2 = 0) := by
  fun_induction stripZeros n e with
  | case1 => exact .inr ⟨rfl, rfl⟩
  | case2 n e _ _ ih => exact ih
  | case3 n e _ h => exact .inl h

/-- The decimal `±n * 10 ^ e`. -/
def make (negative : Bool) (n : Nat) (e : Int) : Decimal :=
  ⟨negative, (stripZeros n e).1, (stripZeros n e).2, stripZeros_normal n e⟩

end Decimal

end QueryNotation
