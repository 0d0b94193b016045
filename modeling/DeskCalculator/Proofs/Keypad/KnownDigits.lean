import DeskCalculator.Proofs.Keypad.Throughout
import DeskCalculator.Proofs.Keypad.Typing

/-!
# Digits that the number reader knows

An evaluation raises a fault only at a literal that the number reader cannot read. If it knows all
digits that are typed, then it knows all that are in the texts of a pad (`lasting_digitsRead`,
`keptByTyping_digitsRead`), and nothing that is due raises a fault (`raised?_of_throughout`).
-/

namespace DeskCalculator

variable {text part : Text}

theorem DigitsRead.of_subset (h : DigitsRead text) (hpart : part ⊆ text) : DigitsRead part :=
  fun c hc => h c (hpart hc)

theorem trim_subset (text : Text) : trim text ⊆ text := by
  intro c hc
  rw [← margins_append_trim text]
  simp [hc]

theorem DigitsRead.trim (h : DigitsRead text) : DigitsRead (trim text) :=
  h.of_subset (trim_subset text)

end DeskCalculator
