/-!
# Binary64 codes

A non-negative double is named by its *code*, the natural number that its 64 bits write.  The
codes below `infinityCode` are the finite doubles in increasing order, so neighbouring doubles
have neighbouring codes.  Every finite double is a whole multiple of the least positive one,
2⁻¹⁰⁷⁴, and `magnitude` is that multiple: exact arithmetic on doubles needs natural numbers only.
-/

namespace DeskCalculator.Binary64

/-- The weight of the lowest bit of the exponent: the number of fractions for each exponent. -/
def exponentWeight : Nat :=
  Nat.pow 2 52

/-- The weight of the sign bit. -/
def signWeight : Nat :=
  Nat.pow 2 63

/-- The code of positive infinity, where all bits of the exponent are set. -/
def infinityCode : Nat :=
  2047 * exponentWeight

/-- The least positive double is two to the power of minus this. -/
@[irreducible]
def unitExponent : Nat :=
  1074

/-- How many times the least positive double makes one. -/
def unitsInOne : Nat :=
  Nat.pow 2 unitExponent

/-- The finite double with a given code, in units of 2⁻¹⁰⁷⁴.  Without an exponent the code is the
fraction; otherwise the fraction has a leading bit that the code leaves out. -/
def magnitude (code : Nat) : Nat :=
  if code < exponentWeight then code
  else (exponentWeight + code % exponentWeight) * Nat.pow 2 (code / exponentWeight - 1)

/-- The double with a given code, or its opposite. -/
def ofCode (negative : Bool) (code : Nat) : Float :=
  Float.ofBits (UInt64.ofNat (if negative then signWeight + code else code))

/-- The code of the absolute value. -/
def code (value : Float) : Nat :=
  value.toBits.toNat % signWeight

/-- Whether the sign bit is set. -/
def isNegative (value : Float) : Bool :=
  signWeight ≤ value.toBits.toNat

end DeskCalculator.Binary64
