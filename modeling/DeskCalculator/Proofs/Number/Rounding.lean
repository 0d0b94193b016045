import DeskCalculator.Number.Nearest
import DeskCalculator.Proofs.Number.Word
import Mathlib.Order.Monotone.Basic

/-!
# Rounding to the nearest double

The fractions that are rounded to a double fill an interval around it, from halfway to the double
below to halfway to the double above, and the ends belong to it if the code is even (`RoundsTo`).
No two intervals have a fraction in common (`RoundsTo.unique`), and `nearest` picks the code whose
interval has the fraction (`nearest_eq`).
-/

namespace DeskCalculator.Binary64

/-! ### The distance between neighbours -/

/-- From the double with a given code to the next one, in units of 2⁻¹⁰⁷⁴. -/
def gap (code : Nat) : Nat :=
  2 ^ (code / exponentWeight - 1)

theorem gap_pos (c : Nat) : 0 < gap c :=
  Nat.pow_pos Nat.two_pos

theorem magnitude_zero : magnitude 0 = 0 := rfl

/-- The worth of a significand of 53 bits at a bit position. -/
theorem magnitude_shift {s m : Nat} (hs : s = 0 ∨ exponentWeight ≤ m)
    (hm : m ≤ 2 * exponentWeight) : magnitude (s * exponentWeight + m) = m * 2 ^ s := by
  unfold magnitude
  rw [exponentWeight_eq] at *
  by_cases hlt : m < 2 ^ 52
  · obtain rfl : s = 0 := by omega
    rw [if_pos (by omega)]
    omega
  rw [if_neg (by omega)]
  by_cases heq : m = 2 * 2 ^ 52
  · have hdiv : (s * 2 ^ 52 + m) / 2 ^ 52 - 1 = s + 1 := by omega
    have hmod : (s * 2 ^ 52 + m) % 2 ^ 52 = 0 := by omega
    rw [hdiv, hmod, heq, Nat.pow_eq, Nat.pow_succ]
    ring
  · have hdiv : (s * 2 ^ 52 + m) / 2 ^ 52 - 1 = s := by omega
    have hmod : 2 ^ 52 + (s * 2 ^ 52 + m) % 2 ^ 52 = m := by omega
    rw [hdiv, hmod, Nat.pow_eq]

theorem exists_shift (c : Nat) :
    ∃ s m, c = s * exponentWeight + m ∧ (s = 0 ∨ exponentWeight ≤ m) ∧ m < 2 * exponentWeight ∧
      s = c / exponentWeight - 1 := by
  rw [exponentWeight_eq]
  by_cases hlt : c < 2 ^ 52
  · exact ⟨0, c, by omega, .inl rfl, by omega, by omega⟩
  · exact ⟨c / 2 ^ 52 - 1, 2 ^ 52 + c % 2 ^ 52, by omega, .inr (by omega), by omega, rfl⟩

theorem magnitude_succ (c : Nat) : magnitude (c + 1) = magnitude c + gap c := by
  obtain ⟨s, m, rfl, hs, hm, hgap⟩ := exists_shift c
  unfold gap
  rw [← hgap, magnitude_shift hs hm.le, Nat.add_assoc,
    magnitude_shift (hs.imp_right fun h => by omega) (by omega), Nat.add_mul, Nat.one_mul]

theorem magnitude_strictMono : StrictMono magnitude :=
  strictMono_nat_of_lt_succ fun c => by
    rw [magnitude_succ]
    exact Nat.lt_add_of_pos_right (gap_pos c)

/-! ### The interval of a double -/

/-- **The fractions that are rounded to the double with a given code.** The numerator is in units of
2⁻¹⁰⁷⁴. -/
def RoundsTo (code numerator denominator : Nat) : Prop :=
  let below := (magnitude (code - 1) + magnitude code) * denominator
  let above := (magnitude code + magnitude (code + 1)) * denominator
  below ≤ 2 * numerator ∧ 2 * numerator ≤ above ∧
    (code % 2 = 1 → below < 2 * numerator ∧ 2 * numerator < above)

theorem RoundsTo.le {c c' n d : Nat} (hd : 0 < d) (h : RoundsTo c n d) (h' : RoundsTo c' n d) :
    c' ≤ c := by
  by_contra hlt
  obtain ⟨-, habove, hodd⟩ := h
  obtain ⟨hbelow, -, hodd'⟩ := h'
  have h1 : magnitude c ≤ magnitude (c' - 1) := magnitude_strictMono.monotone (by omega)
  have h2 : magnitude (c + 1) ≤ magnitude c' := magnitude_strictMono.monotone (by omega)
  have hle : (magnitude c + magnitude (c + 1)) * d ≤ (magnitude (c' - 1) + magnitude c') * d :=
    Nat.mul_le_mul_right d (Nat.add_le_add h1 h2)
  -- a common fraction is the end of both intervals, so they belong to neighbours
  have hends : magnitude c + magnitude (c + 1) = magnitude (c' - 1) + magnitude c' :=
    Nat.eq_of_mul_eq_mul_right hd (by omega)
  have hnext : c + 1 = c' := magnitude_strictMono.injective (by omega)
  rcases Nat.mod_two_eq_zero_or_one c with hc | hc
  · have := (hodd' (by omega)).1
    omega
  · have := (hodd hc).2
    omega

/-- **No fraction is rounded to two doubles.** -/
theorem RoundsTo.unique {c c' n d : Nat} (hd : 0 < d) (h : RoundsTo c n d) (h' : RoundsTo c' n d) :
    c = c' :=
  Nat.le_antisymm (h'.le hd h) (h.le hd h')

/-! ### Cutting a fraction to 53 bits -/

/-- The nearest whole number is at most half away, and less if it is odd. -/
theorem roundHalfEven_spec (n : Nat) {d : Nat} (hd : 0 < d) :
    2 * (roundHalfEven n d * d) ≤ 2 * n + d ∧ 2 * n ≤ 2 * (roundHalfEven n d * d) + d ∧
      (roundHalfEven n d % 2 = 1 →
        2 * (roundHalfEven n d * d) < 2 * n + d ∧ 2 * n < 2 * (roundHalfEven n d * d) + d) := by
  have hn : n / d * d + n % d = n := Nat.div_add_mod' n d
  have hr : n % d < d := Nat.mod_lt n hd
  unfold roundHalfEven
  simp only
  generalize n / d = q at *
  generalize n % d = r at *
  split
  · exact ⟨by omega, by omega, fun _ => ⟨by omega, by omega⟩⟩
  split
  · rw [Nat.add_mul, Nat.one_mul]
    exact ⟨by omega, by omega, fun _ => ⟨by omega, by omega⟩⟩
  · rcases Nat.mod_two_eq_zero_or_one q with hq | hq
    · rw [hq, Nat.add_zero]
      exact ⟨by omega, by omega, fun h => by omega⟩
    · rw [hq, Nat.add_mul, Nat.one_mul]
      exact ⟨by omega, by omega, fun h => by omega⟩

/-- The bit position of a fraction: that of its leading bit, but not below the lowest one. -/
def shift (numerator denominator : Nat) : Nat :=
  (numerator / denominator).log2 - 52

/-- The significand of a fraction at its bit position. -/
def significand (numerator denominator : Nat) : Nat :=
  roundHalfEven numerator (denominator * 2 ^ shift numerator denominator)

section

variable {n d : Nat}

theorem lt_shift (n : Nat) (hd : 0 < d) : n < 2 * exponentWeight * (d * 2 ^ shift n d) := by
  have hlog : n / d < 2 ^ ((n / d).log2 + 1) := Nat.lt_log2_self
  have hle : 2 ^ ((n / d).log2 + 1) ≤ 2 ^ (53 + shift n d) :=
    Nat.pow_le_pow_right Nat.two_pos (by unfold shift; omega)
  have hlt : n < 2 ^ (53 + shift n d) * d :=
    (Nat.div_lt_iff_lt_mul hd).mp (Nat.lt_of_lt_of_le hlog hle)
  calc n < 2 ^ (53 + shift n d) * d := hlt
    _ = 2 * exponentWeight * (d * 2 ^ shift n d) := by
      rw [exponentWeight_eq, Nat.pow_add]
      ring

theorem le_shift (hs : shift n d ≠ 0) : exponentWeight * (d * 2 ^ shift n d) ≤ n := by
  have hq : n / d ≠ 0 := by
    intro h0
    unfold shift at hs
    rw [h0] at hs
    exact hs rfl
  have hlog : 2 ^ (n / d).log2 ≤ n / d := Nat.log2_self_le hq
  have hexp : (n / d).log2 = 52 + shift n d := by
    unfold shift at hs ⊢
    omega
  calc exponentWeight * (d * 2 ^ shift n d) = 2 ^ (n / d).log2 * d := by
        rw [hexp, exponentWeight_eq, Nat.pow_add]
        ring
    _ ≤ n / d * d := Nat.mul_le_mul_right d hlog
    _ ≤ n := Nat.div_mul_le_self n d

theorem shiftDenominator_pos (n : Nat) (hd : 0 < d) : 0 < d * 2 ^ shift n d :=
  Nat.mul_pos hd (Nat.pow_pos Nat.two_pos)

theorem significand_le (n : Nat) (hd : 0 < d) : significand n d ≤ 2 * exponentWeight := by
  have hD := shiftDenominator_pos n hd
  have hlt := lt_shift n hd
  have hround := (roundHalfEven_spec n hD).1
  unfold significand
  generalize roundHalfEven n (d * 2 ^ shift n d) = m at *
  generalize d * 2 ^ shift n d = D at *
  by_contra hm
  have : (2 * exponentWeight + 1) * D ≤ m * D := Nat.mul_le_mul_right D (by omega)
  rw [Nat.add_mul, Nat.one_mul] at this
  omega

theorem le_significand (hd : 0 < d) (hs : shift n d ≠ 0) : exponentWeight ≤ significand n d := by
  have hD := shiftDenominator_pos n hd
  have hle := le_shift hs
  have hround := (roundHalfEven_spec n hD).2.1
  unfold significand
  generalize roundHalfEven n (d * 2 ^ shift n d) = m at *
  generalize d * 2 ^ shift n d = D at *
  by_contra hm
  have : (m + 1) * D ≤ exponentWeight * D := Nat.mul_le_mul_right D (by omega)
  rw [Nat.add_mul, Nat.one_mul] at this
  omega

/-- The code that a fraction is cut to, were there no largest one. -/
def cut (numerator denominator : Nat) : Nat :=
  shift numerator denominator * exponentWeight + significand numerator denominator

theorem magnitude_cut (n : Nat) (hd : 0 < d) :
    magnitude (cut n d) = significand n d * 2 ^ shift n d := by
  refine magnitude_shift ?_ (significand_le n hd)
  by_cases hs : shift n d = 0
  · exact .inl hs
  · exact .inr (le_significand hd hs)

theorem le_gap_cut (hd : 0 < d) : 2 ^ shift n d ≤ gap (cut n d) := by
  refine Nat.pow_le_pow_right Nat.two_pos ?_
  by_cases hs : shift n d = 0
  · rw [hs]
    exact Nat.zero_le _
  · have hm := le_significand hd hs
    unfold cut
    rw [exponentWeight_eq] at *
    omega

/-- The double below is a step of the significand away, except at a power of two, and then the
fraction lies above. -/
theorem gap_pred_cut (hd : 0 < d) :
    gap (cut n d - 1) = 2 ^ shift n d ∨
      significand n d * (d * 2 ^ shift n d) ≤ n := by
  have hm := significand_le n hd
  by_cases hpow : significand n d = exponentWeight ∧ shift n d ≠ 0
  · right
    rw [hpow.1]
    exact le_shift hpow.2
  · left
    have hlow : shift n d ≠ 0 → exponentWeight ≤ significand n d := le_significand hd
    unfold gap
    congr 1
    unfold cut at *
    rw [exponentWeight_eq] at *
    omega

/-- **A fraction lies in the interval of the double that it is cut to.** -/
theorem roundsTo_cut (n : Nat) (hd : 0 < d) : RoundsTo (cut n d) n d := by
  have hD := shiftDenominator_pos n hd
  obtain ⟨hbelow, habove, hodd⟩ := roundHalfEven_spec n hD
  have hparity : cut n d % 2 = significand n d % 2 := by
    unfold cut
    rw [exponentWeight_eq]
    omega
  have hmag : magnitude (cut n d) * d = significand n d * (d * 2 ^ shift n d) := by
    rw [magnitude_cut n hd]
    ring
  have hstep : d * 2 ^ shift n d ≤ gap (cut n d) * d := by
    rw [Nat.mul_comm]
    exact Nat.mul_le_mul_right d (le_gap_cut hd)
  have hupper : (magnitude (cut n d) + magnitude (cut n d + 1)) * d =
      2 * (significand n d * (d * 2 ^ shift n d)) + gap (cut n d) * d := by
    rw [magnitude_succ, ← hmag]
    ring
  unfold RoundsTo
  simp only
  rw [hupper, hparity]
  change 2 * (significand n d * _) ≤ _ at hbelow
  change _ ≤ 2 * (significand n d * _) + _ at habove
  change significand n d % 2 = 1 → 2 * (significand n d * _) < _ ∧ _ < 2 * (significand n d * _) + _
    at hodd
  by_cases hc : cut n d = 0
  · have hzero : (magnitude (cut n d - 1) + magnitude (cut n d)) * d = 0 := by
      rw [hc, magnitude_zero, Nat.zero_mul]
    rw [hzero]
    exact ⟨Nat.zero_le _, by omega, fun h => by omega⟩
  have hpred : magnitude (cut n d) = magnitude (cut n d - 1) + gap (cut n d - 1) := by
    rw [← magnitude_succ, Nat.sub_add_cancel (Nat.pos_of_ne_zero hc)]
  have hlower : (magnitude (cut n d - 1) + magnitude (cut n d)) * d + gap (cut n d - 1) * d =
      2 * (significand n d * (d * 2 ^ shift n d)) := by
    rw [← hmag]
    rw [hpred]
    ring
  have hgap : 0 < gap (cut n d - 1) * d := Nat.mul_pos (gap_pos _) hd
  rcases gap_pred_cut hd with hg | hg
  · have hg' : gap (cut n d - 1) * d = d * 2 ^ shift n d := by rw [hg, Nat.mul_comm]
    refine ⟨by omega, by omega, fun h => ?_⟩
    have := hodd h
    exact ⟨by omega, by omega⟩
  · refine ⟨by omega, by omega, fun h => ?_⟩
    have := hodd h
    exact ⟨by omega, by omega⟩

end

/-- **Rounding to the nearest double** picks the one whose interval has the fraction. -/
theorem nearest_eq {c num den : Nat} (hc : c ≤ infinityCode) (hd : 0 < den)
    (h : RoundsTo c (num * unitsInOne) den) : nearest num den = c := by
  have hcut : cut (num * unitsInOne) den = c := (roundsTo_cut _ hd).unique hd h
  have hnearest : nearest num den = min infinityCode (cut (num * unitsInOne) den) := rfl
  rw [hnearest, hcut]
  exact Nat.min_eq_right hc

end DeskCalculator.Binary64
