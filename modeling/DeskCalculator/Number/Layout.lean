import DeskCalculator.Number.Shortest
import DeskCalculator.Text.Basic

/-!
# Numbers as text

A finite double is written with the digits of the shortest decimal that reads back.  A `Layout`
decides the rest: where the exponent is written out, how whole numbers end, whether zero has a
sign.  There are two layouts.  `display` is always positional, so what is shown can be read as a
number again; `trace` is for dumps and logs, marks whole numbers with `.0` and moves to an exponent
for very large and very small numbers.
-/

namespace DeskCalculator

/-- How the digits of a number are laid out. -/
structure Layout where
  /-- Which exponents of the leading digit are written positionally. -/
  positional : Int → Bool
  /-- What ends a whole number. -/
  wholeMark : Text
  /-- Whether negative zero has its sign. -/
  signedZero : Bool
  infinity : Text
  undefined : Text

namespace Layout

/-- What a result is shown as: no exponent, no mark, no sign of zero. -/
def display : Layout where
  positional := fun _ => true
  wholeMark := []
  signedZero := false
  infinity := ['I', 'n', 'f', 'i', 'n', 'i', 't', 'y']
  undefined := ['N', 'a', 'N']

/-- What dumps and logs contain: an exponent below 10⁻⁴ and from 10¹⁶. -/
def trace : Layout where
  positional := fun exponent => -4 ≤ exponent && exponent < 16
  wholeMark := ['.', '0']
  signedZero := true
  infinity := ['i', 'n', 'f']
  undefined := ['n', 'a', 'n']

end Layout

namespace Decimal

/-- The digits, most significant first. -/
def figures (d : Decimal) : Text :=
  Nat.toDigits 10 d.digits

/-- The exponent of the leading digit. -/
def exponent (d : Decimal) : Int :=
  d.place + d.figures.length - 1

/-- Written without an exponent.  A whole number ends in the mark. -/
def positional (wholeMark : Text) (d : Decimal) : Text :=
  if 0 ≤ d.place then
    d.figures ++ List.replicate d.place.toNat '0' ++ wholeMark
  else
    let decimals := (-d.place).toNat
    let padded := List.replicate (decimals + 1 - d.figures.length) '0' ++ d.figures
    let whole := padded.length - decimals
    padded.take whole ++ '.' :: padded.drop whole

/-- Written as one leading digit, the others after a point, and a signed exponent of at least two
digits. -/
def scientific (d : Decimal) : Text :=
  let mantissa :=
    match d.figures with
    | [] => []
    | [digit] => [digit]
    | digit :: others => digit :: '.' :: others
  let size := Nat.toDigits 10 d.exponent.natAbs
  mantissa ++ 'e' :: (if d.exponent < 0 then '-' else '+') ::
    (List.replicate (2 - size.length) '0' ++ size)

/-- Written in a layout. -/
def write (layout : Layout) (d : Decimal) : Text :=
  if layout.positional d.exponent then d.positional layout.wholeMark else d.scientific

end Decimal

namespace Layout

/-- A double in a layout. -/
def write (layout : Layout) (value : Float) : Text :=
  let code := Binary64.code value
  let sign := if Binary64.isNegative value then ['-'] else []
  if Binary64.infinityCode < code then layout.undefined
  else if code = Binary64.infinityCode then sign ++ layout.infinity
  else if code = 0 then
    (if layout.signedZero then sign else []) ++ (Decimal.mk 0 0).write layout
  else sign ++ (Binary64.shortest code).write layout

end Layout

end DeskCalculator
