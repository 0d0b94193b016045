import DeskCalculator.Text.Printable

/-!
# Quoted texts

A text is quoted between single marks, or between double marks if it holds a single mark and no
double one.  The mark, the backslash and the characters that are not printable are escaped, so a
quoted text fits on one line.
-/

namespace DeskCalculator

/-- The code point of a character in lower-case hexadecimal digits, at least `width` of them. -/
def hexadecimal (width : Nat) (c : Char) : Text :=
  let digits := Nat.toDigits 16 c.toNat
  List.replicate (width - digits.length) '0' ++ digits

/-- A character inside quotation marks of a given kind. -/
def quoteChar (mark c : Char) : Text :=
  if c = mark ∨ c = '\\' then ['\\', c]
  else if c = '\t' then ['\\', 't']
  else if c = '\n' then ['\\', 'n']
  else if c = '\r' then ['\\', 'r']
  else if isPrintable c then [c]
  else if c.toNat < 0x100 then '\\' :: 'x' :: hexadecimal 2 c
  else if c.toNat < 0x10000 then '\\' :: 'u' :: hexadecimal 4 c
  else '\\' :: 'U' :: hexadecimal 8 c

/-- The marks that a text is quoted between. -/
def quotationMark (text : Text) : Char :=
  if '\'' ∈ text ∧ '"' ∉ text then '"' else '\''

/-- A text between quotation marks. -/
def quoted (text : Text) : Text :=
  let mark := quotationMark text
  mark :: text.flatMap (quoteChar mark) ++ [mark]

end DeskCalculator
