/-!
# Texts and classes of characters

A text is the list of its characters, so lengths, cuts and last characters count code points.  A
class of characters is given by closed ranges of code points, and `Ranges.has` is membership in
it.
-/

namespace DeskCalculator

/-- What is typed, read and shown: a list of characters. -/
abbrev Text := List Char

/-- Closed ranges of code points. -/
abbrev Ranges := List (Nat × Nat)

/-- Whether the code point of a character lies in one of the ranges. -/
def Ranges.has (ranges : Ranges) (c : Char) : Bool :=
  ranges.any fun range => range.1 ≤ c.toNat && c.toNat ≤ range.2

theorem Ranges.has_iff (ranges : Ranges) (c : Char) :
    ranges.has c = true ↔ ∃ range ∈ ranges, range.1 ≤ c.toNat ∧ c.toNat ≤ range.2 := by
  simp [Ranges.has]

end DeskCalculator
