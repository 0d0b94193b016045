import DeskCalculator.Number.Binary64
import Mathlib

/-!
# Doubles as words

A finite double is its sign bit and its code, and nothing else: `ofCode` and the pair of
`isNegative` and `code` are inverse to each other (`ofCode_code`, `code_ofCode`). In these terms the
opposite of a double has the other sign bit and the same code (`neg_ofCode`), the finite doubles are
those with a code below `infinityCode` (`isFinite_iff`), and a finite double is worth `magnitude` of
its code in units of 2⁻¹⁰⁷⁴ (`exact_eq`).
-/

namespace DeskCalculator.Binary64

open Float.Model Float.Model.UnpackedFloat

theorem exponentWeight_eq : exponentWeight = 2 ^ 52 := rfl

theorem signWeight_eq : signWeight = 2 ^ 63 := rfl

theorem infinityCode_eq : infinityCode = 2047 * 2 ^ 52 := rfl

theorem unitExponent_eq : unitExponent = 1074 := by
  unfold unitExponent
  rfl

theorem unitsInOne_eq : unitsInOne = 2 ^ unitExponent := rfl

theorem unitsInOne_pos : 0 < unitsInOne :=
  Nat.pow_pos Nat.two_pos

theorem infinityCode_lt : infinityCode < signWeight := by decide

/-! ### The fields of a word -/

theorem toNat_unpackMantissa (b : BitVec Format.binary64.numBits) :
    (unpackMantissa b).toNat = b.toNat % 2 ^ 52 := by
  simp [unpackMantissa, BitVec.extractLsb]

theorem toNat_unpackExponent (b : BitVec Format.binary64.numBits) :
    (unpackExponent b).toNat = b.toNat / 2 ^ 52 % 2 ^ 11 := by
  simp [unpackExponent, BitVec.extractLsb, Nat.shiftRight_eq_div_pow]

theorem toNat_unpackSign (b : BitVec Format.binary64.numBits) :
    (unpackSign b).toNat = b.toNat / 2 ^ 63 % 2 := by
  simp [unpackSign, BitVec.extractLsb, Nat.shiftRight_eq_div_pow]

/-- The sign that a sign bit stands for. -/
def signOf (negative : Bool) : Sign :=
  if negative then .negative else .positive

/-- The word of a sign bit and a code. -/
def word (negative : Bool) (code : Nat) : BitVec Format.binary64.numBits :=
  BitVec.ofNat 64 (if negative then signWeight + code else code)

/-- The finite double of a sign bit and a code, taken apart. -/
def parts (negative : Bool) (code : Nat) : UnpackedFloat :=
  if h : code = 0 then .zero (signOf negative)
  else if code < 2 ^ 52 then .finite (signOf negative) code (-1074) (Nat.pos_of_ne_zero h)
  else
    .finite (signOf negative) (2 ^ 52 + code % 2 ^ 52) (code / 2 ^ 52 - 1075) (by omega)

variable {negative : Bool} {c : Nat}

theorem toNat_toBitVec_signOf (negative : Bool) :
    (signOf negative).toBitVec.toNat = if negative then 1 else 0 := by
  cases negative <;> rfl

theorem toNat_word (h : c < signWeight) :
    (word negative c).toNat = (if negative then signWeight else 0) + c := by
  rw [signWeight_eq] at h ⊢
  have hw : (word negative c).toNat = (if negative then 2 ^ 63 + c else c) % 2 ^ 64 := rfl
  rw [hw]
  split <;> omega

theorem unpackSign_word (h : c < signWeight) :
    Sign.ofBitVec (unpackSign (word negative c)) = signOf negative := by
  have hs : unpackSign (word negative c) = (signOf negative).toBitVec := by
    refine BitVec.eq_of_toNat_eq ?_
    rw [toNat_unpackSign, toNat_toBitVec_signOf, toNat_word h]
    rw [signWeight_eq] at *
    split <;> omega
  rw [hs]
  cases negative <;> rfl

theorem unpackMantissa_word (h : c < signWeight) :
    (unpackMantissa (word negative c)).toNat = c % 2 ^ 52 := by
  rw [toNat_unpackMantissa, toNat_word h, signWeight_eq]
  split <;> omega

theorem unpackExponent_word (h : c < signWeight) :
    (unpackExponent (word negative c)).toNat = c / 2 ^ 52 := by
  rw [toNat_unpackExponent, toNat_word h]
  rw [signWeight_eq] at *
  split <;> omega

/-! ### Taking a word apart and putting it together -/

theorem unpackExponent_word_ne (h : c < infinityCode) :
    unpackExponent (word negative c) ≠ -1#11 := by
  intro hc
  have he := congrArg BitVec.toNat hc
  rw [unpackExponent_word (Nat.lt_trans h infinityCode_lt)] at he
  rw [infinityCode_eq] at h
  have hones : (-1#11 : BitVec 11).toNat = 2047 := rfl
  omega

theorem unpack_word (h : c < infinityCode) :
    UnpackedFloat.unpack Format.binary64 (word negative c) = parts negative c := by
  have hs : c < signWeight := Nat.lt_trans h infinityCode_lt
  have hm : (unpackMantissa (word negative c)).toNat = c % 2 ^ 52 := unpackMantissa_word hs
  have he : (unpackExponent (word negative c)).toNat = c / 2 ^ 52 := unpackExponent_word hs
  rw [UnpackedFloat.unpack]
  simp only [unpackSign_word hs]
  rw [if_neg (unpackExponent_word_ne h), parts]
  by_cases hz : c / 2 ^ 52 = 0
  · have hexp : unpackExponent (word negative c) = 0#11 :=
      BitVec.eq_of_toNat_eq (by rw [he, hz]; rfl)
    rw [if_pos hexp]
    by_cases hc : c = 0
    · have hmant : unpackMantissa (word negative c) = 0#52 :=
        BitVec.eq_of_toNat_eq (by rw [hm, hc]; rfl)
      rw [dif_pos hmant, dif_pos hc]
    · have hmant : unpackMantissa (word negative c) ≠ 0#52 := by
        intro hm0
        have hm1 := congrArg BitVec.toNat hm0
        rw [hm] at hm1
        have hzero : (0#52 : BitVec 52).toNat = 0 := rfl
        omega
      rw [dif_neg hmant, dif_neg hc, if_pos (by omega)]
      congr 1
      · rw [hm]; omega
      · rw [he, hz]; rfl
  · have hexp : unpackExponent (word negative c) ≠ 0#11 := by
      intro he0
      have he1 := congrArg BitVec.toNat he0
      rw [he] at he1
      exact hz he1
    rw [if_neg hexp, dif_neg (by omega), if_neg (by omega)]
    congr 1
    · rw [BitVec.toNat_append, ← Nat.shiftLeft_add_eq_or_of_lt (BitVec.isLt _), hm]
      rfl
    · rw [he]
      show ((c / 2 ^ 52 : Nat) : Int) - ((1023 : Nat) + (52 : Nat)) = _
      omega

theorem pack_parts (h : c < infinityCode) :
    UnpackedFloat.pack Format.binary64 (parts negative c) = word negative c := by
  have hnumber : isNaNBits (word negative c) = false := by
    unfold isNaNBits
    exact decide_eq_false fun hc => unpackExponent_word_ne h hc.1
  rw [← unpack_word h, pack_unpack, hnumber, if_neg Bool.false_ne_true]

/-! ### Doubles -/

theorem float_ext {v w : Float} (h : v.toBits.toBitVec = w.toBits.toBitVec) : v = w :=
  Float.toBits_inj.mp (UInt64.toBitVec_inj.mp h)

theorem toBitVec_toBits (v : Float) : v.toBits.toBitVec = word (isNegative v) (code v) := by
  have hlt : v.toBits.toNat < 2 ^ 64 := v.toBits.toBitVec.isLt
  have hc : code v < signWeight := Nat.mod_lt _ (by decide)
  refine BitVec.eq_of_toNat_eq ?_
  rw [toNat_word hc]
  show v.toBits.toNat = _
  simp only [isNegative, code, decide_eq_true_eq]
  rw [signWeight_eq]
  split <;> omega

theorem toModel_unpack (v : Float) :
    v.toModel.unpack = UnpackedFloat.unpack Format.binary64 (word (isNegative v) (code v)) := by
  rw [← toBitVec_toBits]
  rfl

theorem unpack_of_lt {v : Float} (h : code v < infinityCode) :
    v.toModel.unpack = parts (isNegative v) (code v) := by
  rw [toModel_unpack, unpack_word h]

theorem toBitVec_toBits_ofCode (h : c < infinityCode) :
    (ofCode negative c).toBits.toBitVec = word negative c := by
  have hb : (UInt64.ofNat (if negative then signWeight + c else c)).toBitVec = word negative c :=
    rfl
  show UnpackedFloat.pack Format.binary64 (UnpackedFloat.unpack Format.binary64 _) = _
  rw [hb, unpack_word h, pack_parts h]

theorem word_inj {negative' : Bool} {c' : Nat} (h : c < signWeight) (h' : c' < signWeight)
    (hw : word negative c = word negative' c') : negative = negative' ∧ c = c' := by
  have hn := congrArg BitVec.toNat hw
  rw [toNat_word h, toNat_word h'] at hn
  cases negative <;> cases negative' <;> simp at hn ⊢ <;> omega

theorem isNegative_and_code_ofCode (h : c < infinityCode) :
    isNegative (ofCode negative c) = negative ∧ code (ofCode negative c) = c := by
  have hw : (ofCode negative c).toBits.toBitVec = word negative c := toBitVec_toBits_ofCode h
  rw [toBitVec_toBits] at hw
  exact word_inj (Nat.mod_lt _ (by decide)) (Nat.lt_trans h infinityCode_lt) hw

theorem isNegative_ofCode (h : c < infinityCode) : isNegative (ofCode negative c) = negative :=
  (isNegative_and_code_ofCode h).1

theorem code_ofCode (h : c < infinityCode) : code (ofCode negative c) = c :=
  (isNegative_and_code_ofCode h).2

theorem ofCode_code (v : Float) : ofCode (isNegative v) (code v) = v := by
  have hbits : (UInt64.ofNat (if isNegative v then signWeight + code v else code v)).toBitVec =
      v.toBits.toBitVec := (toBitVec_toBits v).symm
  unfold ofCode
  rw [UInt64.toBitVec_inj.mp hbits, Float.ofBits_toBits]

theorem neg_parts (negative : Bool) (c : Nat) :
    (parts negative c).neg = parts (!negative) c := by
  have hs : -signOf negative = signOf (!negative) := by cases negative <;> rfl
  unfold parts
  split
  · rw [UnpackedFloat.neg, hs]
  · split <;> rw [UnpackedFloat.neg, hs]

theorem neg_ofCode (h : c < infinityCode) : -ofCode negative c = ofCode (!negative) c := by
  have hu : (ofCode negative c).toModel.unpack = parts negative c := by
    rw [toModel_unpack, isNegative_ofCode h, code_ofCode h, unpack_word h]
  refine float_ext ?_
  rw [toBitVec_toBits_ofCode h]
  show UnpackedFloat.pack Format.binary64 (ofCode negative c).toModel.unpack.neg = _
  rw [hu, neg_parts, pack_parts h]

/-! ### Which doubles are finite, negative or whole -/

theorem isFinite_parts (negative : Bool) (c : Nat) : (parts negative c).isFinite = true := by
  unfold parts
  split
  · rfl
  · split <;> rfl

/-- **The finite doubles are those with a code below that of infinity.** -/
theorem isFinite_iff (v : Float) : v.isFinite = true ↔ code v < infinityCode := by
  show v.toModel.unpack.isFinite = true ↔ _
  constructor
  · intro h
    by_contra hc
    have hs : code v < signWeight := Nat.mod_lt _ (by decide)
    have hexp : unpackExponent (word (isNegative v) (code v)) = -1#11 := by
      refine BitVec.eq_of_toNat_eq ?_
      rw [unpackExponent_word hs]
      rw [infinityCode_eq] at hc
      rw [signWeight_eq] at hs
      show _ = 2047
      omega
    rw [toModel_unpack, UnpackedFloat.unpack] at h
    simp only [hexp, if_true] at h
    split at h <;> cases h
  · intro h
    rw [unpack_of_lt h]
    exact isFinite_parts _ _

/-- A finite double is less than zero if it has its sign bit set and is not a zero. -/
theorem lt_zero_iff {v : Float} (h : v.isFinite = true) :
    v < 0 ↔ isNegative v = true ∧ code v ≠ 0 := by
  have hz : (0 : Float).toModel.unpack = .zero .positive := rfl
  have hlt : v < 0 ↔ v.toModel < (0 : Float).toModel := decide_eq_true_iff
  rw [hlt]
  show (v.toModel.unpack.compare (0 : Float).toModel.unpack == some .lt) = true ↔ _
  rw [unpack_of_lt ((isFinite_iff v).mp h), hz]
  unfold parts
  split
  · next h0 =>
    simp only [h0, ne_eq, not_true_eq_false, and_false, iff_false]
    cases isNegative v <;> decide
  · next h0 =>
    split <;> cases isNegative v <;> simp [signOf, UnpackedFloat.compare, h0]

theorem beq_zero_iff {v : Float} (h : v.isFinite = true) : (v == 0) = true ↔ code v = 0 := by
  have hz : (0 : Float).toModel.unpack = .zero .positive := rfl
  show (v.toModel.unpack.compare (0 : Float).toModel.unpack == some .eq) = true ↔ _
  rw [unpack_of_lt ((isFinite_iff v).mp h), hz]
  unfold parts
  split
  · next h0 =>
    simp only [h0, iff_true]
    cases isNegative v <;> decide
  · next h0 =>
    split <;> cases isNegative v <;> simp [signOf, UnpackedFloat.compare, h0]

/-- The rational number that a finite double stands for. -/
def exact (v : Float) : ℚ :=
  match v.toModel.unpack with
  | .finite s m e _ => s.apply m * 2 ^ e
  | _ => 0

/-- A double that stands for an integer. -/
def IsInteger (v : Float) : Prop :=
  ∃ n : ℤ, exact v = n

/-- **The worth of a finite double**, as a multiple of the least positive one. -/
theorem exact_eq {v : Float} (h : v.isFinite = true) :
    exact v = (if isNegative v then -1 else 1) * (magnitude (code v) / unitsInOne) := by
  have hsign : ∀ m : Nat, (((signOf (isNegative v)).apply m : ℤ) : ℚ) =
      (if isNegative v then -1 else 1) * (m : ℚ) := by
    intro m
    cases isNegative v <;> simp [signOf, Sign.apply]
  have hunits : (2 : ℚ) ^ unitExponent = (unitsInOne : ℚ) := (Nat.cast_pow 2 unitExponent).symm
  have hlt := (isFinite_iff v).mp h
  unfold exact
  rw [unpack_of_lt hlt]
  unfold parts magnitude
  rw [exponentWeight_eq]
  generalize code v = c
  by_cases h0 : c = 0
  · simp [h0]
  · rw [dif_neg h0]
    by_cases hsub : c < 2 ^ 52
    · rw [if_pos hsub, if_pos hsub]
      have hexp : (-1074 : ℤ) = -(unitExponent : ℤ) := by rw [unitExponent_eq]; rfl
      simp only [hsign, hexp]
      rw [zpow_neg, zpow_natCast, hunits, div_eq_mul_inv, mul_assoc]
    · rw [if_neg hsub, if_neg hsub]
      have hexp : ((c : ℤ) / 2 ^ 52 - 1075) = ((c / 2 ^ 52 - 1 : ℕ) : ℤ) + -(unitExponent : ℤ) := by
        rw [unitExponent_eq]
        omega
      simp only [hsign, hexp]
      rw [zpow_add₀ two_ne_zero, zpow_neg, zpow_natCast, zpow_natCast, hunits, Nat.pow_eq]
      push_cast
      ring

theorem isInteger_iff {v : Float} (h : v.isFinite = true) :
    IsInteger v ↔ unitsInOne ∣ magnitude (code v) := by
  have hpos : (unitsInOne : ℚ) ≠ 0 := Nat.cast_ne_zero.mpr unitsInOne_pos.ne'
  unfold IsInteger
  rw [exact_eq h]
  constructor
  · rintro ⟨n, hn⟩
    have hmul : ((magnitude (code v) : ℤ) : ℚ) =
        ((unitsInOne * ((if isNegative v then -1 else 1) * n) : ℤ) : ℚ) := by
      push_cast
      rw [← hn]
      split <;> field_simp
    have hint : (magnitude (code v) : ℤ) = unitsInOne * ((if isNegative v then -1 else 1) * n) := by
      exact_mod_cast hmul
    have hdvd : (unitsInOne : ℤ) ∣ (magnitude (code v) : ℤ) := ⟨_, hint⟩
    exact_mod_cast hdvd
  · rintro ⟨k, hk⟩
    refine ⟨(if isNegative v then -1 else 1) * k, ?_⟩
    rw [hk]
    push_cast
    rw [mul_div_cancel_left₀ _ hpos]

end DeskCalculator.Binary64
