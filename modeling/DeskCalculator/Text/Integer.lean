import DeskCalculator.Text.Blank
import DeskCalculator.Text.Digit

/-!
# Integers

An integer is written in decimal digits of any script, after an optional sign, with single
underscores between digits if wanted and blanks around it.  More than 4300 digits are not read.
-/

namespace DeskCalculator

/-- The digits of a text of digits with single underscores between them; nothing for any other
text. -/
def groupedDigits? : Text → Option Text
  | [] => none
  | [c] => if isDecimalDigit c then some [c] else none
  | c :: '_' :: rest => if isDecimalDigit c then (groupedDigits? rest).map (c :: ·) else none
  | c :: rest => if isDecimalDigit c then (groupedDigits? rest).map (c :: ·) else none

/-- The number of a text of digits. -/
def readNatural? (text : Text) : Option Nat :=
  match groupedDigits? text with
  | some digits => if digits.length ≤ 4300 then some (digitsValue digits) else none
  | none => none

/-- The integer that a text writes. -/
def readInteger? (text : Text) : Option Int :=
  let inner := ((text.dropWhile isBlank).reverse.dropWhile isBlank).reverse
  match inner with
  | '-' :: digits => (readNatural? digits).map fun value => -(value : Int)
  | '+' :: digits => (readNatural? digits).map Int.ofNat
  | digits => (readNatural? digits).map Int.ofNat

end DeskCalculator
