import DeskCalculator.Text.Blank
import DeskCalculator.Text.Digit
import DeskCalculator.Text.Letter
import Mathlib.Tactic.Ring

/-!
# Classes of characters and the value of digits

Decimal digits, letters and margins exclude each other, and no sign of an expression is any of them.
The digits of a number in the decimal system are worth the number; zeros before them change nothing,
zeros after them multiply by ten.
-/

namespace DeskCalculator

/-! ### Classes that exclude each other -/

/-- Whether no range of a class meets a range of code points. -/
def Ranges.avoids (ranges : Ranges) (first last : Nat) : Bool :=
  ranges.all fun range => range.2.blt first || last.blt range.1

theorem Ranges.has_eq_false {ranges : Ranges} {first last : Nat}
    (h : ranges.avoids first last = true) {c : Char} (hc : first ≤ c.toNat ∧ c.toNat ≤ last) :
    ranges.has c = false := by
  rw [Bool.eq_false_iff]
  intro hhas
  obtain ⟨range, hmem, hlow, hhigh⟩ := (Ranges.has_iff ranges c).mp hhas
  have := List.all_eq_true.mp h range hmem
  simp only [Bool.or_eq_true, Nat.blt_eq] at this
  omega

theorem isDecimalDigit_iff {c : Char} :
    isDecimalDigit c = true ↔ ∃ first ∈ zeros, first ≤ c.toNat ∧ c.toNat ≤ first + 9 := by
  unfold isDecimalDigit digitValue?
  rw [Option.isSome_map, List.find?_isSome]
  simp only [Bool.and_eq_true, decide_eq_true_eq]
  constructor
  · rintro ⟨first, hmem, h⟩
    exact ⟨first, hmem, by omega⟩
  · rintro ⟨first, hmem, h⟩
    exact ⟨first, hmem, by omega⟩

theorem Ranges.has_of_isDecimalDigit {ranges : Ranges}
    (h : (zeros.all fun first => ranges.avoids first (first + 9)) = true) {c : Char}
    (hc : isDecimalDigit c = true) : ranges.has c = false := by
  obtain ⟨first, hmem, hrange⟩ := isDecimalDigit_iff.mp hc
  exact Ranges.has_eq_false (List.all_eq_true.mp h first hmem) hrange

theorem isPatternDigit_iff {c : Char} :
    isPatternDigit c = true ↔ isDecimalDigit c = true ∨ laterDigits.has c = true :=
  Bool.or_eq_true_iff

theorem isPatternDigit_of_isDecimalDigit {c : Char} (h : isDecimalDigit c = true) :
    isPatternDigit c = true :=
  isPatternDigit_iff.mpr (.inl h)

theorem Ranges.has_of_has {ranges others : Ranges}
    (h : (ranges.all fun range => others.avoids range.1 range.2) = true) {c : Char}
    (hc : ranges.has c = true) : others.has c = false := by
  obtain ⟨range, hmem, hrange⟩ := (Ranges.has_iff ranges c).mp hc
  exact Ranges.has_eq_false (List.all_eq_true.mp h range hmem) hrange

theorem Ranges.has_of_isPatternDigit {ranges : Ranges}
    (h : (zeros.all fun first => ranges.avoids first (first + 9)) = true)
    (hlater : (laterDigits.all fun range => ranges.avoids range.1 range.2) = true) {c : Char}
    (hc : isPatternDigit c = true) : ranges.has c = false := by
  rcases isPatternDigit_iff.mp hc with hc | hc
  · exact Ranges.has_of_isDecimalDigit h hc
  · exact Ranges.has_of_has hlater hc

theorem isLetter_of_isPatternDigit {c : Char} (h : isPatternDigit c = true) : isLetter c = false :=
  Ranges.has_of_isPatternDigit (by decide +kernel) (by decide +kernel) h

theorem isMargin_of_isPatternDigit {c : Char} (h : isPatternDigit c = true) :
    isMargin c = false := by
  unfold isMargin isBlank
  rw [Bool.or_eq_false_iff]
  exact ⟨Ranges.has_of_isPatternDigit (by decide +kernel) (by decide +kernel) h,
    Ranges.has_of_isPatternDigit (by decide +kernel) (by decide +kernel) h⟩

theorem isMargin_of_isDecimalDigit {c : Char} (h : isDecimalDigit c = true) :
    isMargin c = false :=
  isMargin_of_isPatternDigit (isPatternDigit_of_isDecimalDigit h)

theorem isMargin_of_isLetter {c : Char} (h : isLetter c = true) : isMargin c = false := by
  unfold isMargin isBlank
  rw [Bool.or_eq_false_iff]
  exact ⟨Ranges.has_of_has (by decide +kernel) h, Ranges.has_of_has (by decide +kernel) h⟩

theorem isBlank_eq_false {c : Char} (h : isMargin c = false) : isBlank c = false :=
  Bool.eq_false_iff.mpr fun hb => Bool.eq_false_iff.mp h (isMargin_of_isBlank hb)

/-! ### The value of digits -/

theorem digitValue?_of_isDigit {c : Char} (h : c.isDigit = true) :
    digitValue? c = some (c.toNat - 48) := by
  have hrange : 48 ≤ c.toNat ∧ c.toNat ≤ 57 := by
    simp only [Char.isDigit, Bool.and_eq_true, decide_eq_true_eq] at h
    exact h
  unfold digitValue? zeros
  rw [List.find?_cons_of_pos (by simp only [Bool.and_eq_true, decide_eq_true_eq]; omega)]
  rfl

theorem isDecimalDigit_of_isDigit {c : Char} (h : c.isDigit = true) : isDecimalDigit c = true := by
  rw [isDecimalDigit, digitValue?_of_isDigit h]
  rfl

theorem digitsValue_append (first second : Text) :
    digitsValue (first ++ second) =
      digitsValue first * 10 ^ second.length + digitsValue second := by
  have hfrom (ds : Text) : ∀ start, ds.foldl (fun value c => 10 * value + (digitValue? c).getD 0)
      start = start * 10 ^ ds.length + digitsValue ds := by
    induction ds with
    | nil => intro start; simp [digitsValue]
    | cons c ds ih =>
      intro start
      have hcons : digitsValue (c :: ds) = (10 * 0 + (digitValue? c).getD 0) * 10 ^ ds.length +
          digitsValue ds := ih _
      rw [List.foldl_cons, ih, hcons, List.length_cons, Nat.pow_succ]
      ring
  unfold digitsValue
  rw [List.foldl_append, hfrom]
  rfl

theorem digitsValue_replicate_zero (n : Nat) : digitsValue (List.replicate n '0') = 0 := by
  induction n with
  | zero => rfl
  | succ n ih =>
    rw [List.replicate_succ', digitsValue_append, ih]
    rfl

theorem digitsValue_eq_ofDigitChars {ds : Text} (h : ∀ c ∈ ds, c.isDigit = true) :
    digitsValue ds = Nat.ofDigitChars 10 ds 0 := by
  have hfrom : ∀ start, ds.foldl (fun value c => 10 * value + (digitValue? c).getD 0) start =
      Nat.ofDigitChars 10 ds start := by
    induction ds with
    | nil => intro start; rfl
    | cons c ds ih =>
      intro start
      rw [List.foldl_cons, ih fun c hc => h c (List.mem_cons_of_mem _ hc),
        digitValue?_of_isDigit (h c List.mem_cons_self)]
      rfl
  exact hfrom 0

/-- **The decimal digits of a number are worth the number.** -/
theorem digitsValue_toDigits (n : Nat) : digitsValue (Nat.toDigits 10 n) = n := by
  rw [digitsValue_eq_ofDigitChars fun c hc =>
    Nat.isDigit_of_mem_toDigits (by decide) (by decide) hc]
  exact Nat.ofDigitChars_toDigits (by decide) (by decide)

theorem getLast?_toDigits_ne_zero {n : Nat} (h : n % 10 ≠ 0) :
    (Nat.toDigits 10 n).getLast? ≠ some '0' := by
  rw [Nat.toDigits_eq_if (by decide)]
  split
  · intro hlast
    have := Nat.digitChar_eq_zero.mp (Option.some.inj hlast)
    omega
  · intro hlast
    rw [List.getLast?_concat] at hlast
    exact h (Nat.digitChar_eq_zero.mp (Option.some.inj hlast))

end DeskCalculator
