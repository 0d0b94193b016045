import DeskCalculator.Number.Shortest
import DeskCalculator.Proofs.Number.Rounding

/-!
# The shortest decimal reads back

Whatever reads back as a double is rounded to it (`nearest_of_readsBack`), and the decimal found by
`coarsest` reads back (`readsBack_coarsest`). No multiple of a higher power of ten does
(`not_readsBack_of_lt`), so the digits do not end in a zero (`coarsest_mod_ten_ne_zero`) and the
decimal is a whole number if the double is (`IsShortest.isInteger_iff`). Later modules know the
shortest decimal by `exists_shortest` only.
-/

namespace DeskCalculator.Binary64

theorem halfUnit_eq : halfUnit = 5 ^ (unitExponent + 1) := rfl

theorem halfUnit_pos : 0 < halfUnit :=
  Nat.pow_pos (by decide)

theorem two_mul_halfUnit_mul_unitsInOne :
    2 * halfUnit * unitsInOne = 10 ^ (unitExponent + 1) := by
  rw [halfUnit_eq, unitsInOne_eq, show (10 : ℕ) = 2 * 5 from rfl, Nat.mul_pow, Nat.pow_succ 2]
  ring

/-! ### What reads back -/

theorem readsBack_iff {c number : Nat} : readsBack c number = true ↔
    lowerEnd c ≤ number ∧ number ≤ upperEnd c ∧
      (c % 2 = 1 → lowerEnd c < number ∧ number < upperEnd c) := by
  unfold readsBack
  split
  · simp only [Bool.and_eq_true, decide_eq_true_eq]
    exact ⟨fun h => ⟨h.1, h.2, fun h1 => by omega⟩, fun h => ⟨h.1, h.2.1⟩⟩
  · simp only [Bool.and_eq_true, decide_eq_true_eq]
    exact ⟨fun h => ⟨h.1.le, h.2.le, fun _ => h⟩, fun h => h.2.2 (by omega)⟩

section

variable {x number n d : Nat}

theorem mul_halfUnit_le_iff (hd : 0 < d) (hn : number * d = 2 * n * halfUnit) :
    x * halfUnit ≤ number ↔ x * d ≤ 2 * n := by
  rw [← Nat.mul_le_mul_right_iff hd, hn, Nat.mul_right_comm, Nat.mul_le_mul_right_iff halfUnit_pos]

theorem le_mul_halfUnit_iff (hd : 0 < d) (hn : number * d = 2 * n * halfUnit) :
    number ≤ x * halfUnit ↔ 2 * n ≤ x * d := by
  rw [← Nat.mul_le_mul_right_iff hd, hn, Nat.mul_right_comm x,
    Nat.mul_le_mul_right_iff halfUnit_pos]

end

/-- The interval of a double in units of 10⁻¹⁰⁷⁵ is that of rounding. -/
theorem roundsTo_of_readsBack {c number n d : Nat} (hd : 0 < d)
    (hn : number * d = 2 * n * halfUnit) (h : readsBack c number = true) : RoundsTo c n d := by
  obtain ⟨hbelow, habove, hodd⟩ := readsBack_iff.mp h
  unfold lowerEnd upperEnd at *
  refine ⟨(mul_halfUnit_le_iff hd hn).mp hbelow, (le_mul_halfUnit_iff hd hn).mp habove, ?_⟩
  intro hc
  obtain ⟨hb, ha⟩ := hodd hc
  exact ⟨Nat.lt_of_not_le fun hle => Nat.not_le_of_lt hb ((le_mul_halfUnit_iff hd hn).mpr hle),
    Nat.lt_of_not_le fun hle => Nat.not_le_of_lt ha ((mul_halfUnit_le_iff hd hn).mpr hle)⟩

/-- **What reads back as a double is rounded to it.** -/
theorem nearest_of_readsBack {c number num den : Nat} (hc : c ≤ infinityCode) (hd : 0 < den)
    (hn : number * den = num * 10 ^ (unitExponent + 1)) (h : readsBack c number = true) :
    nearest num den = c := by
  refine nearest_eq hc hd (roundsTo_of_readsBack hd ?_ h)
  rw [hn, ← two_mul_halfUnit_mul_unitsInOne]
  ring

variable {c : Nat}

theorem readsBack_centre (hc : c ≠ 0) : readsBack c (centre c) = true := by
  have hlow : magnitude (c - 1) + magnitude c < 2 * magnitude c := by
    have := magnitude_strictMono (show c - 1 < c by omega)
    omega
  have hhigh : 2 * magnitude c < magnitude c + magnitude (c + 1) := by
    have := magnitude_strictMono (show c < c + 1 by omega)
    omega
  have hlow' : lowerEnd c < centre c := Nat.mul_lt_mul_of_pos_right hlow halfUnit_pos
  have hhigh' : centre c < upperEnd c := Nat.mul_lt_mul_of_pos_right hhigh halfUnit_pos
  exact readsBack_iff.mpr ⟨hlow'.le, hhigh'.le, fun _ => ⟨hlow', hhigh'⟩⟩

theorem readsBack_between {a b number : Nat} (ha : readsBack c a = true)
    (hb : readsBack c b = true) (h : a ≤ number ∧ number ≤ b) : readsBack c number = true := by
  obtain ⟨ha1, -, ha2⟩ := readsBack_iff.mp ha
  obtain ⟨-, hb1, hb2⟩ := readsBack_iff.mp hb
  refine readsBack_iff.mpr ⟨by omega, by omega, fun hodd => ?_⟩
  have := (ha2 hodd).1
  have := (hb2 hodd).2
  exact ⟨by omega, by omega⟩

theorem pos_of_readsBack {number : Nat} (hc : c ≠ 0) (h : readsBack c number = true) :
    0 < number := by
  have hm : 0 < magnitude c := by
    have := magnitude_strictMono (Nat.pos_of_ne_zero hc)
    omega
  have hlow : 0 < lowerEnd c := Nat.mul_pos (by omega) halfUnit_pos
  exact Nat.lt_of_lt_of_le hlow (readsBack_iff.mp h).1

/-! ### Multiples of a step -/

theorem readsBack_of_multiple? {step factor : Nat} (h : multiple? c step = some factor) :
    readsBack c (factor * step) = true := by
  unfold multiple? at h
  simp only at h
  split at h
  · next hb ha =>
    -- the chosen one is one of the two neighbours
    have hcases : factor = centre c / step ∨ factor = centre c / step + 1 := by
      split at h
      · exact .inl (Option.some.inj h).symm
      split at h
      · exact .inr (Option.some.inj h).symm
      · have := Option.some.inj h
        omega
    rcases hcases with rfl | rfl
    · exact hb
    · exact ha
  · next hb _ => rwa [← Option.some.inj h]
  · next _ ha => rwa [← Option.some.inj h]
  · cases h

theorem not_readsBack_of_multiple? {step : Nat} (hc : c ≠ 0) (h : multiple? c step = none)
    (factor : Nat) : readsBack c (factor * step) = false := by
  have hcentre := readsBack_centre hc
  have hb : readsBack c (centre c / step * step) = false ∧
      readsBack c ((centre c / step + 1) * step) = false := by
    unfold multiple? at h
    simp only at h
    split at h
    · split at h
      · cases h
      split at h <;> cases h
    · cases h
    · cases h
    · next hb ha => exact ⟨hb, ha⟩
  rw [Bool.eq_false_iff]
  intro hf
  rcases Nat.lt_or_ge (centre c / step) factor with hlt | hge
  · have habove : centre c ≤ (centre c / step + 1) * step := by
      rcases Nat.eq_zero_or_pos step with rfl | hstep
      · rw [Nat.mul_zero] at hf
        exact absurd (pos_of_readsBack hc hf) (Nat.lt_irrefl 0)
      · exact (Nat.lt_mul_of_div_lt (Nat.lt_succ_self _) hstep).le
    have hle : (centre c / step + 1) * step ≤ factor * step := Nat.mul_le_mul_right step hlt
    rw [readsBack_between hcentre hf ⟨habove, hle⟩] at hb
    exact Bool.noConfusion hb.2
  · have hle : factor * step ≤ centre c / step * step := Nat.mul_le_mul_right step hge
    have hbelow : centre c / step * step ≤ centre c := Nat.div_mul_le_self _ _
    rw [readsBack_between hf hcentre ⟨hle, hbelow⟩] at hb
    exact Bool.noConfusion hb.1

/-! ### The coarsest power of ten -/

theorem readsBack_coarsest (hc : c ≠ 0) (power : Nat) :
    readsBack c ((coarsest c power).1 * 10 ^ (coarsest c power).2) = true := by
  induction power with
  | zero =>
    rw [coarsest, Nat.pow_zero, Nat.mul_one]
    exact readsBack_centre hc
  | succ power ih =>
    rw [coarsest]
    split
    · next factor hf => exact readsBack_of_multiple? hf
    · exact ih

theorem not_readsBack_of_le (hc : c ≠ 0) {power j : Nat} (hj : (coarsest c power).2 < j)
    (hle : j ≤ power) (factor : Nat) : readsBack c (factor * 10 ^ j) = false := by
  induction power with
  | zero => omega
  | succ power ih =>
    rw [coarsest] at hj
    split at hj
    · exact absurd hle (by simp only at hj; omega)
    · next hnone =>
      rcases Nat.lt_or_ge power j with hlt | hge
      · obtain rfl : j = power + 1 := by omega
        exact not_readsBack_of_multiple? hc hnone factor
      · exact ih hj hge

/-- The search begins above the interval: 13 · log₁₀ 2 is less than 4. -/
theorem upperEnd_lt_powerAbove (c : Nat) : upperEnd c < 10 ^ powerAbove c := by
  have hlog : upperEnd c < 2 ^ ((upperEnd c).log2 + 1) := Nat.lt_log2_self
  have hlarge : 2 ^ 42 ≤ upperEnd c := by
    have hfive : 5 ^ 42 ≤ halfUnit :=
      Nat.pow_le_pow_right (by decide) (by rw [unitExponent_eq]; decide)
    have hm : 0 < magnitude (c + 1) := by
      have := magnitude_strictMono (show 0 < c + 1 by omega)
      omega
    have hone : 1 * halfUnit ≤ upperEnd c := Nat.mul_le_mul_right halfUnit (by omega)
    omega
  have hexp : 42 ≤ (upperEnd c).log2 := (Nat.le_log2 (by omega)).mpr hlarge
  have hpower : 13 * ((upperEnd c).log2 + 1) ≤ 43 * powerAbove c := by
    unfold powerAbove
    omega
  refine Nat.lt_of_lt_of_le hlog ?_
  refine (Nat.pow_le_pow_iff_left (show 13 ≠ 0 by decide)).mp ?_
  calc (2 ^ ((upperEnd c).log2 + 1)) ^ 13 = 2 ^ (13 * ((upperEnd c).log2 + 1)) := by
        rw [← Nat.pow_mul, Nat.mul_comm]
    _ ≤ 2 ^ (43 * powerAbove c) := Nat.pow_le_pow_right Nat.two_pos hpower
    _ = (2 ^ 43) ^ powerAbove c := Nat.pow_mul ..
    _ ≤ (10 ^ 13) ^ powerAbove c := Nat.pow_le_pow_left (by decide) _
    _ = (10 ^ powerAbove c) ^ 13 := by rw [← Nat.pow_mul, ← Nat.pow_mul, Nat.mul_comm]

theorem not_readsBack_of_lt (hc : c ≠ 0) {j : Nat} (hj : (coarsest c (powerAbove c)).2 < j)
    (factor : Nat) : readsBack c (factor * 10 ^ j) = false := by
  rcases Nat.lt_or_ge (powerAbove c) j with hlt | hge
  · rw [Bool.eq_false_iff]
    intro h
    have hpos := Nat.pos_of_mul_pos_right (pos_of_readsBack hc h)
    have hup := (readsBack_iff.mp h).2.1
    have hab := upperEnd_lt_powerAbove c
    have hpow : 10 ^ powerAbove c ≤ 10 ^ j := Nat.pow_le_pow_right (by decide) hlt.le
    have hmul : 1 * 10 ^ j ≤ factor * 10 ^ j := Nat.mul_le_mul_right _ hpos
    omega
  · exact not_readsBack_of_le hc hj hge factor

theorem coarsest_mod_ten_ne_zero (hc : c ≠ 0) : (coarsest c (powerAbove c)).1 % 10 ≠ 0 := by
  intro h0
  have hback := readsBack_coarsest hc (powerAbove c)
  have hten : (coarsest c (powerAbove c)).1 = (coarsest c (powerAbove c)).1 / 10 * 10 := by omega
  rw [hten, Nat.mul_assoc, ← Nat.pow_succ'] at hback
  rw [not_readsBack_of_lt hc (Nat.lt_succ_self _)] at hback
  exact Bool.noConfusion hback

/-! ### Whole numbers -/

theorem roundHalfEven_mul (m : Nat) {d : Nat} (hd : 0 < d) : roundHalfEven (m * d) d = m := by
  unfold roundHalfEven
  simp only
  rw [Nat.mul_div_cancel m hd, Nat.mul_mod_left, if_pos (by omega)]

theorem significand_mul_two_pow {n : Nat} (h : 2 ^ shift n 1 ∣ n) :
    significand n 1 * 2 ^ shift n 1 = n := by
  obtain ⟨k, hk⟩ := h
  have hround : roundHalfEven n (1 * 2 ^ shift n 1) = k := by
    rw [Nat.one_mul]
    calc roundHalfEven n (2 ^ shift n 1)
        = roundHalfEven (k * 2 ^ shift n 1) (2 ^ shift n 1) := by
          congr 1
          rw [Nat.mul_comm]
          exact hk
      _ = k := roundHalfEven_mul k (Nat.pow_pos Nat.two_pos)
  unfold significand
  rw [hround, Nat.mul_comm]
  exact hk.symm

theorem unitsInOne_dvd_magnitude_nearest {number : Nat} (h : nearest number 1 < infinityCode) :
    unitsInOne ∣ magnitude (nearest number 1) := by
  have hcut : nearest number 1 = cut (number * unitsInOne) 1 := by
    have hnearest : nearest number 1 = min infinityCode (cut (number * unitsInOne) 1) := rfl
    omega
  rw [hcut, magnitude_cut _ Nat.one_pos]
  rcases Nat.le_total unitExponent (shift (number * unitsInOne) 1) with hs | hs
  · exact Nat.dvd_trans (Nat.pow_dvd_pow 2 hs) (Nat.dvd_mul_left _ _)
  · rw [significand_mul_two_pow (Nat.dvd_trans (Nat.pow_dvd_pow 2 hs) (Nat.dvd_mul_left _ _))]
    exact Nat.dvd_mul_left _ _

/-- What the digits and the place of the shortest decimal are known for. -/
structure IsShortest (code factor power : Nat) : Prop where
  readsBack : readsBack code (factor * 10 ^ power) = true
  mod_ten_ne_zero : factor % 10 ≠ 0
  not_readsBack : ∀ j, power < j → ∀ other, Binary64.readsBack code (other * 10 ^ j) = false

/-- **The shortest decimal** reads back, does not end in a zero, and no multiple of a higher power
of ten reads back. -/
theorem exists_shortest (hc : c ≠ 0) : ∃ factor power : Nat,
    shortest c = ⟨factor, power - (unitExponent + 1 : Nat)⟩ ∧ IsShortest c factor power :=
  ⟨_, _, rfl, readsBack_coarsest hc _, coarsest_mod_ten_ne_zero hc,
    fun _ hj other => not_readsBack_of_lt hc hj other⟩

theorem IsShortest.isInteger_iff {v : Float} (hv : v.isFinite = true) (h0 : code v ≠ 0)
    {factor power : Nat} (h : IsShortest (code v) factor power) :
    IsInteger v ↔ unitExponent + 1 ≤ power := by
  rw [Binary64.isInteger_iff hv]
  constructor
  · rintro ⟨k, hk⟩
    by_contra hlt
    have hcentre : centre (code v) = k * 10 ^ (unitExponent + 1) := by
      rw [← two_mul_halfUnit_mul_unitsInOne, centre, hk]
      ring
    have hback := readsBack_centre h0
    rw [hcentre, h.not_readsBack _ (by omega)] at hback
    exact Bool.noConfusion hback
  · intro hle
    have hfin : code v < infinityCode := (isFinite_iff v).mp hv
    obtain ⟨j, rfl⟩ := Nat.exists_eq_add_of_le hle
    have hnearest : nearest (factor * 10 ^ j) 1 = code v := by
      refine nearest_of_readsBack hfin.le Nat.one_pos ?_ h.readsBack
      ring
    rw [← hnearest]
    exact unitsInOne_dvd_magnitude_nearest (by rwa [hnearest])

theorem IsShortest.nearest {factor power : Nat} (h : IsShortest c factor power)
    (hc : c < infinityCode) :
    Binary64.nearest (factor * 10 ^ (power - (unitExponent + 1)))
      (10 ^ (unitExponent + 1 - power)) = c := by
  refine nearest_of_readsBack hc.le (Nat.pow_pos (Nat.succ_pos 9)) ?_ h.readsBack
  rw [Nat.mul_assoc, Nat.mul_assoc, ← Nat.pow_add, ← Nat.pow_add]
  congr 2
  omega

end DeskCalculator.Binary64
