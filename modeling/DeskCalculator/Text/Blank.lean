import DeskCalculator.Text.Basic

/-!
# Blank characters and margins

A blank is a character with the property White_Space; blanks separate lexemes and are no keys.  A
margin character is a blank or one of the four information separators; margins are cut off the
ends of a line or of a buffer.  The two classes differ, so a text of information separators alone
has an empty trimmed form and is still not made of blanks.
-/

namespace DeskCalculator

/-- The code points with the property White_Space. -/
def whiteSpace : Ranges :=
  [(0x09, 0x0D), (0x20, 0x20), (0x85, 0x85), (0xA0, 0xA0), (0x1680, 0x1680), (0x2000, 0x200A),
   (0x2028, 0x2029), (0x202F, 0x202F), (0x205F, 0x205F), (0x3000, 0x3000)]

/-- The information separators: of files, groups, records and units. -/
def informationSeparators : Ranges :=
  [(0x1C, 0x1F)]

/-- Separates lexemes and is no key. -/
def isBlank (c : Char) : Bool :=
  whiteSpace.has c

/-- Is cut off at either end of a line. -/
def isMargin (c : Char) : Bool :=
  isBlank c || informationSeparators.has c

/-- Without the margin at its end. -/
def trimRight (text : Text) : Text :=
  (text.reverse.dropWhile isMargin).reverse

/-- Without the margins at both ends. -/
def trim (text : Text) : Text :=
  trimRight (text.dropWhile isMargin)

/-- Every blank is a margin character. -/
theorem isMargin_of_isBlank {c : Char} (h : isBlank c = true) : isMargin c = true := by
  simp [isMargin, h]

end DeskCalculator
