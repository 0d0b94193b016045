import DeskCalculator.Number.Binary64

/-!
# The double nearest to a fraction

A non-negative fraction is rounded to the nearest double, a fraction halfway between two doubles to
the one with the even code.  What lies halfway beyond the largest finite double, or further, is
rounded to infinity.
-/

namespace DeskCalculator.Binary64

/-- The whole number nearest to a fraction; of two equally near ones the even one. -/
def roundHalfEven (numerator denominator : Nat) : Nat :=
  let quotient := numerator / denominator
  let excess := 2 * (numerator % denominator)
  if excess < denominator then quotient
  else if denominator < excess then quotient + 1
  else quotient + quotient % 2

/-- The code of the double nearest to a fraction with a positive denominator.  The fraction is cut
to 53 significant bits; each bit position above the lowest is one step of the exponent. -/
def nearest (numerator denominator : Nat) : Nat :=
  let scaled := numerator * unitsInOne
  let shift := (scaled / denominator).log2 - 52
  min infinityCode
    (shift * exponentWeight + roundHalfEven scaled (denominator * Nat.pow 2 shift))

end DeskCalculator.Binary64
