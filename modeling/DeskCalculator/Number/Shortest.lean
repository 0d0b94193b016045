import DeskCalculator.Number.Binary64

/-!
# The shortest decimal that reads back

The decimals that are read as a given positive double fill an interval: from halfway to the
neighbour below to halfway to the neighbour above, with its ends if the code is even.  In units of
10⁻¹⁰⁷⁵ the double and both ends of its interval are whole numbers, and `shortest` takes the
coarsest power of ten that has a multiple in the interval: that multiple has the fewest digits.
Where two neighbouring multiples lie in the interval the one nearer to the double is taken, and the
even one if they are equally near.
-/

namespace DeskCalculator

/-- The decimal `digits · 10 ^ place`. -/
structure Decimal where
  digits : Nat
  place : Int
  deriving DecidableEq, Repr

namespace Binary64

/-- Half of the least positive double, in units of 10⁻¹⁰⁷⁵. -/
def halfUnit : Nat :=
  Nat.pow 5 (unitExponent + 1)

/-- The double with a given code, in units of 10⁻¹⁰⁷⁵. -/
def centre (code : Nat) : Nat :=
  2 * magnitude code * halfUnit

/-- Halfway to the double below. -/
def lowerEnd (code : Nat) : Nat :=
  (magnitude (code - 1) + magnitude code) * halfUnit

/-- Halfway to the double above. -/
def upperEnd (code : Nat) : Nat :=
  (magnitude code + magnitude (code + 1)) * halfUnit

/-- Whether a number of units of 10⁻¹⁰⁷⁵ is read as the double with a given code. -/
def readsBack (code number : Nat) : Bool :=
  if code % 2 = 0 then lowerEnd code ≤ number && number ≤ upperEnd code
  else lowerEnd code < number && number < upperEnd code

/-- The multiple of a step nearest to the double, among those that read back. -/
def multiple? (code step : Nat) : Option Nat :=
  let below := centre code / step
  match readsBack code (below * step), readsBack code ((below + 1) * step) with
  | true, true =>
    let excess := 2 * (centre code % step)
    if excess < step then some below
    else if step < excess then some (below + 1)
    else some (below + below % 2)
  | true, false => some below
  | false, true => some (below + 1)
  | false, false => none

/-- The coarsest of the powers of ten from a given one down to the unit that has a multiple which
reads back, with the factor.  The unit always has one, the double itself. -/
def coarsest (code : Nat) : Nat → Nat × Nat
  | 0 => (centre code, 0)
  | power + 1 =>
    match multiple? code (Nat.pow 10 (power + 1)) with
    | some factor => (factor, power + 1)
    | none => coarsest code power

/-- The exponent of a power of ten that lies above the interval of a double: 4/13 is a little
more than the decimal logarithm of two. -/
def powerAbove (code : Nat) : Nat :=
  (upperEnd code).log2 * 4 / 13 + 1

/-- The decimal with the fewest digits that reads back as the positive double with a given code,
the nearest to it of those. -/
def shortest (code : Nat) : Decimal :=
  let found := coarsest code (powerAbove code)
  ⟨found.1, found.2 - (unitExponent + 1 : Nat)⟩

end Binary64

end DeskCalculator
