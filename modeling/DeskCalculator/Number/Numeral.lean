import DeskCalculator.Number.Nearest
import DeskCalculator.Text.Digit

/-!
# Numerals

A numeral is made of decimal digits that have a value, with at most one point and at least one digit;
digits on one side of the point are enough.  It is worth the double nearest to the decimal that it
writes.
-/

namespace DeskCalculator.Numeral

/-- The double nearest to the decimal with these digits before and after the point. -/
def value (whole decimals : Text) : Float :=
  Binary64.ofCode false
    (Binary64.nearest (digitsValue (whole ++ decimals)) (Nat.pow 10 decimals.length))

/-- What a numeral is worth; nothing if the text is no numeral. -/
def read? (text : Text) : Option Float :=
  let whole := text.takeWhile isDecimalDigit
  match text.dropWhile isDecimalDigit with
  | [] => if whole = [] then none else some (value whole [])
  | point :: decimals =>
    if point = '.' ∧ decimals.all isDecimalDigit ∧ whole ++ decimals ≠ [] then
      some (value whole decimals)
    else none

end DeskCalculator.Numeral
