import DeskCalculator.Text.Basic

/-!
# Digits

A decimal digit is a character of the general category Nd, of any script.  Such characters come in
blocks of ten, from zero to nine, so the class is the list of its zeros and a digit is worth its
distance from the zero of its block.  A digit symbol is a decimal digit or one of the characters
that stand for a digit without being used in positional numerals, such as a superscript or a
circled digit.

Numbers are read by an older version of the standard than texts are matched by.  The digits that only
the matching knows (`laterDigits`) are digits for a pattern and have no value.
-/

namespace DeskCalculator

/-- The zero of each block of ten decimal digits. -/
def zeros : List Nat :=
  [0x30, 0x660, 0x6F0, 0x7C0, 0x966, 0x9E6, 0xA66, 0xAE6, 0xB66, 0xBE6, 0xC66, 0xCE6, 0xD66,
   0xDE6, 0xE50, 0xED0, 0xF20, 0x1040, 0x1090, 0x17E0, 0x1810, 0x1946, 0x19D0, 0x1A80, 0x1A90,
   0x1B50, 0x1BB0, 0x1C40, 0x1C50, 0xA620, 0xA8D0, 0xA900, 0xA9D0, 0xA9F0, 0xAA50, 0xABF0,
   0xFF10, 0x104A0, 0x10D30, 0x11066, 0x110F0, 0x11136, 0x111D0, 0x112F0, 0x11450, 0x114D0,
   0x11650, 0x116C0, 0x11730, 0x118E0, 0x11950, 0x11C50, 0x11D50, 0x11DA0, 0x16A60, 0x16AC0,
   0x16B50, 0x1D7CE, 0x1D7D8, 0x1D7E2, 0x1D7EC, 0x1D7F6, 0x1E140, 0x1E2F0, 0x1E950, 0x1FBF0]

/-- The decimal digits that are in later versions of the standard only, and have no value here. -/
def laterDigits : Ranges :=
  [(0x10D40, 0x10D49), (0x116D0, 0x116E3), (0x11BF0, 0x11BF9), (0x11DE0, 0x11DE9),
   (0x11F50, 0x11F59), (0x16130, 0x16139), (0x16D70, 0x16D79), (0x1CCF0, 0x1CCF9),
   (0x1E4F0, 0x1E4F9), (0x1E5F1, 0x1E5FA)]

/-- Digits that are not used in positional numerals. -/
def loneDigits : Ranges :=
  [(0xB2, 0xB3), (0xB9, 0xB9), (0x1369, 0x1371), (0x19DA, 0x19DA), (0x2070, 0x2070),
   (0x2074, 0x2079), (0x2080, 0x2089), (0x2460, 0x2468), (0x2474, 0x247C), (0x2488, 0x2490),
   (0x24EA, 0x24EA), (0x24F5, 0x24FD), (0x24FF, 0x24FF), (0x2776, 0x277E), (0x2780, 0x2788),
   (0x278A, 0x2792), (0x10A40, 0x10A43), (0x10E60, 0x10E68), (0x11052, 0x1105A),
   (0x1F100, 0x1F10A)]

/-- What a decimal digit is worth. -/
def digitValue? (c : Char) : Option Nat :=
  (zeros.find? fun first => first ≤ c.toNat && c.toNat < first + 10).map (c.toNat - ·)

/-- A decimal digit of any script. -/
def isDecimalDigit (c : Char) : Bool :=
  (digitValue? c).isSome

/-- A decimal digit for the matching of patterns, whether or not it has a value. -/
def isPatternDigit (c : Char) : Bool :=
  isDecimalDigit c || laterDigits.has c

/-- A decimal digit, or another character that stands for a digit. -/
def isDigitSymbol (c : Char) : Bool :=
  isDecimalDigit c || loneDigits.has c

/-- The number that a list of decimal digits writes, most significant digit first. -/
def digitsValue (digits : Text) : Nat :=
  digits.foldl (fun value c => 10 * value + (digitValue? c).getD 0) 0

end DeskCalculator
