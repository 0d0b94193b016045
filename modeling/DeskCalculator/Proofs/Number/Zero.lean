import DeskCalculator.Machine
import DeskCalculator.Proofs.Number.Display

/-!
# The two zeros and the signs of doubles

A finite double is a zero exactly if its code is zero, and there are two of them. Neither changes a
sum or a difference with a finite double that is no zero, products with them are zeros, and none of
them is a divisor (`add_of_code_eq_zero` and so on). A numeral is never worth less than zero
(`Numeral.zero_le_of_read?`).
-/

namespace DeskCalculator

open Binary64 Float.Model Float.Model.UnpackedFloat

namespace Binary64

variable {v w z : Float}

/-! ### Comparing with zero -/

theorem zero_le_iff (h : v.isFinite = true) : 0 ≤ v ↔ isNegative v = false ∨ code v = 0 := by
  have hz : (0 : Float).toModel.unpack = .zero .positive := rfl
  have hle : 0 ≤ v ↔ (0 : Float).toModel ≤ v.toModel := decide_eq_true_iff
  rw [hle]
  show ((0 : Float).toModel.unpack.compare v.toModel.unpack).any (·.isLE) = true ↔ _
  rw [unpack_of_lt ((isFinite_iff v).mp h), hz]
  unfold parts
  split
  · next h0 =>
    simp only [h0, or_true, iff_true]
    cases isNegative v <;> decide
  · next h0 =>
    split <;> cases isNegative v <;> simp [signOf, UnpackedFloat.compare, h0]

theorem zero_le_ofCode {c : Nat} (h : c ≤ infinityCode) :
    0 ≤ ofCode false c ∧ ofCode false c ≠ -0.0 := by
  rcases Nat.lt_or_eq_of_le h with hlt | rfl
  · have hsign : isNegative (ofCode false c) = false := isNegative_ofCode hlt
    have hfinite : (ofCode false c).isFinite = true :=
      (isFinite_iff _).mpr (by rwa [code_ofCode hlt])
    refine ⟨(zero_le_iff hfinite).mpr (.inl hsign), fun heq => ?_⟩
    rw [heq] at hsign
    exact absurd hsign (by decide +kernel)
  · decide +kernel

theorem eq_zero_or_of_code_eq_zero (h : code v = 0) : v = 0 ∨ v = -0.0 := by
  have hv := ofCode_code v
  rw [h] at hv
  cases hneg : isNegative v with
  | false =>
    rw [hneg] at hv
    exact .inl (hv.symm.trans (by decide +kernel))
  | true =>
    rw [hneg] at hv
    exact .inr (hv.symm.trans (by decide +kernel))

theorem isFinite_of_code_eq_zero (h : code v = 0) : v.isFinite = true :=
  (isFinite_iff v).mpr (h ▸ by decide)

/-! ### Arithmetic with a zero -/

/-- The opposite of a zero, and any other zero, has no code either. -/
theorem code_eq_zero_of_pack {sign : Sign}
    (h : v.toBits.toBitVec = UnpackedFloat.pack Format.binary64 (.zero sign)) : code v = 0 := by
  have hword : UnpackedFloat.pack Format.binary64 (.zero sign) = word (sign == .negative) 0 := by
    cases sign <;> rfl
  rw [hword, toBitVec_toBits] at h
  exact (word_inj (Nat.mod_lt _ (by decide)) (by decide) h).2

theorem unpack_of_code_eq_zero (h : code v = 0) :
    v.toModel.unpack = .zero (signOf (isNegative v)) := by
  rw [unpack_of_lt (h ▸ by decide), h]
  rfl

theorem unpack_of_code_ne_zero (hv : v.isFinite = true) (h : code v ≠ 0) :
    ∃ sign mantissa exponent hm, v.toModel.unpack = .finite sign mantissa exponent hm := by
  rw [unpack_of_lt ((isFinite_iff v).mp hv)]
  unfold parts
  rw [dif_neg h]
  split
  · exact ⟨_, _, _, Nat.pos_of_ne_zero h, rfl⟩
  · exact ⟨_, _, _, by omega, rfl⟩

theorem eq_of_pack (hv : v.isFinite = true)
    (h : w.toBits.toBitVec = UnpackedFloat.pack Format.binary64 v.toModel.unpack) : w = v := by
  have hlt := (isFinite_iff v).mp hv
  rw [unpack_of_lt hlt, pack_parts hlt, ← toBitVec_toBits] at h
  exact float_ext h

theorem add_of_code_eq_zero (hv : v.isFinite = true) (h : code v ≠ 0) (hz : code z = 0) :
    v + z = v := by
  refine eq_of_pack hv ?_
  show UnpackedFloat.pack Format.binary64
    (UnpackedFloat.add Format.binary64 v.toModel.unpack z.toModel.unpack) = _
  obtain ⟨sign, mantissa, exponent, hm, hunpack⟩ := unpack_of_code_ne_zero hv h
  rw [hunpack, unpack_of_code_eq_zero hz]
  rfl

theorem sub_of_code_eq_zero (hv : v.isFinite = true) (h : code v ≠ 0) (hz : code z = 0) :
    v - z = v := by
  refine eq_of_pack hv ?_
  show UnpackedFloat.pack Format.binary64
    (UnpackedFloat.sub Format.binary64 v.toModel.unpack z.toModel.unpack) = _
  obtain ⟨sign, mantissa, exponent, hm, hunpack⟩ := unpack_of_code_ne_zero hv h
  rw [hunpack, unpack_of_code_eq_zero hz]
  rfl

theorem sub_of_code_eq_zero_left (hw : w.isFinite = true) (h : code w ≠ 0) (hz : code z = 0) :
    z - w = -w := by
  refine float_ext ?_
  show UnpackedFloat.pack Format.binary64
    (UnpackedFloat.sub Format.binary64 z.toModel.unpack w.toModel.unpack) =
      UnpackedFloat.pack Format.binary64 w.toModel.unpack.neg
  obtain ⟨sign, mantissa, exponent, hm, hunpack⟩ := unpack_of_code_ne_zero hw h
  rw [hunpack, unpack_of_code_eq_zero hz]
  rfl

theorem code_sub_of_code_eq_zero (hw : code w = 0) (hz : code z = 0) : code (z - w) = 0 := by
  have hsub : (z - w).toBits.toBitVec = UnpackedFloat.pack Format.binary64
    (UnpackedFloat.sub Format.binary64 z.toModel.unpack w.toModel.unpack) := rfl
  rw [unpack_of_code_eq_zero hw, unpack_of_code_eq_zero hz, UnpackedFloat.sub] at hsub
  split at hsub <;> exact code_eq_zero_of_pack hsub

theorem code_neg_of_code_eq_zero (hw : code w = 0) : code (-w) = 0 := by
  have hneg : (-w).toBits.toBitVec =
    UnpackedFloat.pack Format.binary64 w.toModel.unpack.neg := rfl
  rw [unpack_of_code_eq_zero hw, UnpackedFloat.neg] at hneg
  exact code_eq_zero_of_pack hneg

theorem code_mul_of_code_eq_zero (hv : v.isFinite = true) (hz : code z = 0) : code (v * z) = 0 := by
  have hmul : (v * z).toBits.toBitVec = UnpackedFloat.pack Format.binary64
    (UnpackedFloat.mul Format.binary64 v.toModel.unpack z.toModel.unpack) := rfl
  rw [unpack_of_code_eq_zero hz] at hmul
  by_cases h : code v = 0
  · rw [unpack_of_code_eq_zero h, UnpackedFloat.mul] at hmul
    exact code_eq_zero_of_pack hmul
  · obtain ⟨sign, mantissa, exponent, hm, hunpack⟩ := unpack_of_code_ne_zero hv h
    rw [hunpack, UnpackedFloat.mul] at hmul
    exact code_eq_zero_of_pack hmul

theorem quotient_of_code_eq_zero (v : Float) (hz : code z = 0) :
    quotient v z = .error .divisionByZero :=
  if_pos ((beq_zero_iff (isFinite_of_code_eq_zero hz)).mpr hz)

/-- A number as its shown form has it: without the sign of a zero. -/
def unsignedZero (w : Float) : Float :=
  if w == 0 then 0 else w

theorem unsignedZero_of_code_eq_zero (h : code w = 0) : unsignedZero w = 0 :=
  if_pos ((beq_zero_iff (isFinite_of_code_eq_zero h)).mpr h)

theorem unsignedZero_of_code_ne_zero (hw : w.isFinite = true) (h : code w ≠ 0) :
    unsignedZero w = w :=
  if_neg fun h0 => h ((beq_zero_iff hw).mp h0)

theorem unsignedZero_eq_self (hw : w.isFinite = true) (hne : w ≠ -0.0) : unsignedZero w = w := by
  by_cases h : code w = 0
  · rw [unsignedZero_of_code_eq_zero h]
    exact ((eq_zero_or_of_code_eq_zero h).resolve_right hne).symm
  · exact unsignedZero_of_code_ne_zero hw h

theorem code_zero : code 0 = 0 := by decide +kernel

end Binary64

/-! ### What numerals are worth -/

/-- **A numeral is not worth less than zero**, nor the zero below. -/
theorem Numeral.zero_le_of_read? {run : Text} {v : Float} (h : Numeral.read? run = some v) :
    0 ≤ v ∧ v ≠ -0.0 := by
  obtain ⟨whole, decimals, -, -, -, rfl, -⟩ := Numeral.exists_of_read? h
  exact zero_le_ofCode (Nat.min_le_left _ _)

/-- **A finite double that is not below zero is shown as a numeral** that is worth it. -/
theorem read?_display {v : Float} (hv : v.isFinite = true) (h : 0 ≤ v) :
    Numeral.read? (Layout.display.write v) = some (unsignedZero v) := by
  obtain ⟨n, htext, hnegative, -, hvalue⟩ := exists_plain_display hv
  have hpositive : n.negative = false := by
    rw [Bool.eq_false_iff, ne_eq, hnegative, lt_zero_iff hv]
    rintro ⟨hsign, hcode⟩
    rcases (zero_le_iff hv).mp h with hsign' | hcode'
    · rw [hsign] at hsign'
      cases hsign'
    · exact hcode hcode'
  rw [PlainNumeral.text, hpositive] at htext
  rw [PlainNumeral.value, hpositive] at hvalue
  rw [unsignedZero, ← hvalue, ← htext]
  exact n.read?_unsigned

end DeskCalculator
