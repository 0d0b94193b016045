import DeskCalculator.Proofs.Number.Display

/-!
# Dumped numbers differ

What dumps contain for a finite double without sign is a scaled numeral: digits, a point and further
digits, an exponent (`ScaledNumeral`). The text says what the numeral is worth
(`ScaledNumeral.worthOf_text`), the worth is that of the shortest decimal, and this is rounded to
the double. So two doubles without sign that dumps write alike are the same (`code_eq_of_trace_eq`).
-/

namespace DeskCalculator

/-- What a decimal is worth. -/
def Decimal.worth (d : Decimal) : ℚ :=
  d.digits * 10 ^ d.place

/-! ### Numerals with an exponent -/

/-- The number that an exponent says, behind its letter and its sign. -/
def exponentOf (text : Text) : ℤ :=
  if text[1]? = some '-' then -digitsValue (text.drop 2) else digitsValue (text.drop 2)

/-- The digits of a text before its exponent, scaled by the exponent and by the digits behind the
point. -/
def worthOf (text : Text) : ℚ :=
  let mantissa := text.takeWhile (· != 'e')
  let decimals := (mantissa.dropWhile Char.isDigit).drop 1
  digitsValue (mantissa.filter Char.isDigit) *
    10 ^ (exponentOf (text.dropWhile (· != 'e')) - decimals.length)

/-- The letter of an exponent, its sign and its digits. -/
def IsExponent (text : Text) : Prop :=
  ∃ sign size, text = 'e' :: sign :: size ∧ (sign = '+' ∨ sign = '-') ∧
    ∀ c ∈ size, c.isDigit = true

/-- A number without sign, perhaps with a point and perhaps with an exponent. -/
structure ScaledNumeral where
  whole : Text
  decimals : Text
  exponent : Text
  isDigit_whole : ∀ c ∈ whole, c.isDigit = true
  whole_ne_nil : whole ≠ []
  isDigit_decimals : ∀ c ∈ decimals, c.isDigit = true
  isExponent : exponent = [] ∨ IsExponent exponent

namespace ScaledNumeral

variable (n : ScaledNumeral)

/-- What stands before the exponent. There is a point only before decimals. -/
def mantissa : Text :=
  n.whole ++ if n.decimals = [] then [] else '.' :: n.decimals

def text : Text :=
  n.mantissa ++ n.exponent

def worth : ℚ :=
  digitsValue (n.whole ++ n.decimals) * 10 ^ (exponentOf n.exponent - n.decimals.length)

theorem of_mem_mantissa {c : Char} (h : c ∈ n.mantissa) : c.isDigit = true ∨ c = '.' := by
  rcases List.mem_append.mp h with h | h
  · exact .inl (n.isDigit_whole c h)
  split at h
  · cases h
  rcases List.mem_cons.mp h with h | h
  · exact .inr h
  · exact .inl (n.isDigit_decimals c h)

theorem not_mem_text {c : Char} (hdigit : c.isDigit = false) (h : c ∉ ['.', 'e', '+', '-']) :
    c ∉ n.text := by
  intro hmem
  rcases List.mem_append.mp hmem with hmem | hmem
  · rcases n.of_mem_mantissa hmem with hc | rfl
    · rw [hdigit] at hc
      cases hc
    · exact h (by decide)
  · rcases n.isExponent with hnil | ⟨sign, size, hform, hsign, hsize⟩
    · rw [hnil] at hmem
      cases hmem
    · rw [hform] at hmem
      rcases List.mem_cons.mp hmem with rfl | hmem
      · exact h (by decide)
      rcases List.mem_cons.mp hmem with rfl | hmem
      · rcases hsign with rfl | rfl <;> exact h (by decide)
      · rw [hsize c hmem] at hdigit
        cases hdigit

theorem exists_digit_text : ∃ c rest, n.text = c :: rest ∧ c.isDigit = true := by
  obtain ⟨c, whole, hwhole⟩ := List.exists_cons_of_ne_nil n.whole_ne_nil
  refine ⟨c, (whole ++ if n.decimals = [] then [] else '.' :: n.decimals) ++ n.exponent, ?_, ?_⟩
  · rw [text, mantissa, hwhole]
    rfl
  · exact n.isDigit_whole c (by rw [hwhole]; exact List.mem_cons_self)

theorem filter_mantissa : n.mantissa.filter Char.isDigit = n.whole ++ n.decimals := by
  have hwhole := List.filter_eq_self.mpr n.isDigit_whole
  have hdecimals := List.filter_eq_self.mpr n.isDigit_decimals
  unfold mantissa
  rw [List.filter_append, hwhole]
  split
  · next hnil => rw [hnil, List.filter_nil]
  · rw [List.filter_cons_of_neg (by decide), hdecimals]

theorem drop_mantissa : (n.mantissa.dropWhile Char.isDigit).drop 1 = n.decimals := by
  unfold mantissa
  split
  · next hnil =>
    rw [List.append_nil, List.dropWhile_eq_nil_iff.mpr n.isDigit_whole, hnil, List.drop_nil]
  · have hpoint : ∀ c ∈ ('.' :: n.decimals).head?, c.isDigit = false := by simp
    rw [(takeWhile_append_of_head? n.isDigit_whole hpoint).2]
    rfl

/-- **The text of a scaled numeral says what the numeral is worth.** -/
theorem worthOf_text : worthOf n.text = n.worth := by
  have hmantissa : ∀ c ∈ n.mantissa, (c != 'e') = true := by
    intro c hc
    rcases n.of_mem_mantissa hc with hdigit | rfl
    · exact bne_iff_ne.mpr fun h => absurd (h ▸ hdigit) (by decide)
    · decide
  have hexponent : ∀ c ∈ n.exponent.head?, (c != 'e') = false := by
    rcases n.isExponent with hnil | ⟨sign, size, hform, -⟩
    · simp [hnil]
    · simp [hform]
  obtain ⟨htake, hdrop⟩ := takeWhile_append_of_head? hmantissa hexponent
  rw [worthOf, text, htake, hdrop, n.filter_mantissa, n.drop_mantissa, worth]

end ScaledNumeral

/-! ### Decimals in dumps -/

namespace Decimal

variable (d : Decimal)

/-- The exponent of scientific notation, with its letter and its sign. -/
def exponentText : Text :=
  let size := Nat.toDigits 10 d.exponent.natAbs
  'e' :: (if d.exponent < 0 then '-' else '+') :: (List.replicate (2 - size.length) '0' ++ size)

theorem isExponent_exponentText : IsExponent d.exponentText := by
  refine ⟨_, _, rfl, ?_, fun c hc => ?_⟩
  · split
    · exact .inr rfl
    · exact .inl rfl
  · rcases List.mem_append.mp hc with hc | hc
    · exact isDigit_zeros _ c hc
    · exact Nat.isDigit_of_mem_toDigits (by decide) (by decide) hc

theorem exponentOf_exponentText : exponentOf d.exponentText = d.exponent := by
  have hsize : digitsValue (d.exponentText.drop 2) = d.exponent.natAbs := by
    unfold exponentText
    rw [List.drop_succ_cons, List.drop_succ_cons, List.drop_zero, digitsValue_append,
      digitsValue_replicate_zero, Nat.zero_mul, Nat.zero_add, digitsValue_toDigits]
  have hsign : d.exponentText[1]? = some (if d.exponent < 0 then '-' else '+') := rfl
  rw [exponentOf, hsize, hsign]
  by_cases hneg : d.exponent < 0
  · rw [if_pos hneg, if_pos rfl]
    omega
  · rw [if_neg hneg, if_neg (by decide)]
    omega

theorem scientific_eq {c : Char} {others : Text} (h : d.figures = c :: others) :
    d.scientific = c :: (if others = [] then [] else '.' :: others) ++ d.exponentText := by
  unfold scientific
  rw [h]
  cases others <;> rfl

theorem exists_scaled_scientific :
    ∃ n : ScaledNumeral, n.text = d.scientific ∧ n.worth = d.worth := by
  obtain ⟨c, others, hfigures⟩ := List.exists_cons_of_ne_nil d.figures_ne_nil
  have hdigit := d.isDigit_figures
  rw [hfigures, List.forall_mem_cons] at hdigit
  refine ⟨⟨[c], others, d.exponentText, ?_, List.cons_ne_nil _ _, hdigit.2,
    .inr d.isExponent_exponentText⟩, (d.scientific_eq hfigures).symm, ?_⟩
  · intro x hx
    rw [List.mem_singleton.mp hx]
    exact hdigit.1
  · have hlength : d.exponent = d.place + others.length := by
      rw [exponent, hfigures, List.length_cons]
      omega
    show (digitsValue (c :: others) : ℚ) * 10 ^ (exponentOf d.exponentText - others.length) = _
    rw [← hfigures, figures, digitsValue_toDigits, exponentOf_exponentText, hlength,
      Int.add_sub_cancel, worth]

/-- A whole number in positional notation is a scaled numeral with a zero behind the point. -/
theorem exists_scaled_whole (hplace : 0 ≤ d.place) :
    ∃ n : ScaledNumeral, n.text = d.positional ['.', '0'] ∧ n.worth = d.worth := by
  obtain ⟨n, -, htext, hdigits, hlength⟩ := d.exists_plain (.inl hplace) false
  have hnil : n.decimals = [] := List.length_eq_zero_iff.mp (by omega)
  rw [PlainNumeral.unsigned, hnil, if_pos rfl, List.append_nil] at htext
  rw [hnil, List.append_nil] at hdigits
  refine ⟨⟨n.whole, ['0'], [], n.isDigit_whole, n.whole_ne_nil, by simp, .inl rfl⟩, ?_, ?_⟩
  · rw [positional, if_pos hplace, List.append_nil] at htext
    rw [positional, if_pos hplace, ← htext]
    exact List.append_nil _
  · have hworth : digitsValue (n.whole ++ ['0']) = d.digits * 10 ^ d.place.toNat * 10 := by
      rw [digitsValue_append, hdigits]
      rfl
    have hpower : (10 : ℚ) ^ d.place = 10 ^ d.place.toNat := by
      rw [← zpow_natCast, Int.toNat_of_nonneg hplace]
    show (digitsValue (n.whole ++ ['0']) : ℚ) * 10 ^ (0 - 1 : ℤ) = _
    rw [hworth, worth, hpower]
    push_cast
    ring

theorem exists_scaled_fractional (hplace : d.place < 0) (h : d.digits % 10 ≠ 0) :
    ∃ n : ScaledNumeral, n.text = d.positional ['.', '0'] ∧ n.worth = d.worth := by
  obtain ⟨n, -, htext, hdigits, hlength⟩ := d.exists_plain (.inr h) false
  have hnot : ¬ 0 ≤ d.place := Int.not_le.mpr hplace
  have hne : n.decimals ≠ [] := List.length_pos_iff.mp (by omega)
  rw [PlainNumeral.unsigned, if_neg hne, positional, if_neg hnot] at htext
  refine ⟨⟨n.whole, n.decimals, [], n.isDigit_whole, n.whole_ne_nil, n.isDigit_decimals,
    .inl rfl⟩, ?_, ?_⟩
  · rw [ScaledNumeral.text, ScaledNumeral.mantissa, List.append_nil, if_neg hne, htext, positional,
      if_neg hnot]
  · have hscale : (0 - n.decimals.length : ℤ) = d.place := by omega
    show (digitsValue (n.whole ++ n.decimals) : ℚ) * 10 ^ (0 - n.decimals.length : ℤ) = _
    rw [hdigits, hscale, worth, show d.place.toNat = 0 by omega, Nat.pow_zero, Nat.mul_one]

/-- **What dumps contain for a decimal is a scaled numeral of the same worth**, if the decimal is a
whole number or does not end in a zero. -/
theorem exists_scaled (h : 0 ≤ d.place ∨ d.digits % 10 ≠ 0) :
    ∃ n : ScaledNumeral, n.text = d.write Layout.trace ∧ n.worth = d.worth := by
  unfold write
  split
  · rcases Int.lt_or_le d.place 0 with hneg | hplace
    · exact d.exists_scaled_fractional hneg (h.resolve_left (Int.not_le.mpr hneg))
    · exact d.exists_scaled_whole hplace
  · exact d.exists_scaled_scientific

end Decimal

/-! ### Doubles in dumps -/

open Binary64

variable {c c' : Nat}

theorem trace_infinity : Layout.trace.write (ofCode false infinityCode) = ['i', 'n', 'f'] := by
  decide +kernel

theorem nearest_zero {den : Nat} (hd : 0 < den) : nearest 0 den = 0 :=
  nearest_eq (Nat.zero_le _) hd (by simp [RoundsTo, magnitude_zero])

/-- The decimal that dumps write for a finite double: the shortest one, or no digits for zero. -/
def decimalOf (code : Nat) : Decimal :=
  if code = 0 then ⟨0, 0⟩ else shortest code

theorem trace_ofCode (hc : c < infinityCode) :
    Layout.trace.write (ofCode false c) = (decimalOf c).write Layout.trace := by
  have hcode : code (ofCode false c) = c := code_ofCode hc
  have hsign : isNegative (ofCode false c) = false := isNegative_ofCode hc
  unfold Layout.write decimalOf
  simp only
  rw [hcode, hsign, if_neg (Nat.not_lt_of_lt hc), if_neg hc.ne, if_neg Bool.false_ne_true,
    ite_self, List.nil_append, List.nil_append]
  exact (apply_ite (Decimal.write Layout.trace) _ _ _).symm

theorem exists_number_decimalOf (hc : c < infinityCode) :
    (0 ≤ (decimalOf c).place ∨ (decimalOf c).digits % 10 ≠ 0) ∧
      ∃ number : Nat, (decimalOf c).worth * 10 ^ (unitExponent + 1) = number ∧
        nearest number (10 ^ (unitExponent + 1)) = c := by
  have hten : 0 < 10 ^ (unitExponent + 1) := Nat.pow_pos (Nat.succ_pos 9)
  unfold decimalOf
  by_cases h0 : c = 0
  · rw [if_pos h0]
    refine ⟨.inl (le_refl _), 0, ?_, ?_⟩
    · rw [Decimal.worth, Nat.cast_zero, zero_mul, zero_mul]
    · rw [h0, nearest_zero hten]
  · obtain ⟨factor, power, hshort, hspec⟩ := exists_shortest h0
    rw [if_neg h0, hshort]
    refine ⟨.inr hspec.mod_ten_ne_zero, factor * 10 ^ power, ?_, ?_⟩
    · have hpower : (10 : ℚ) ^ ((power : ℤ) - (unitExponent + 1 : ℕ)) * 10 ^ (unitExponent + 1) =
          10 ^ power := by
        rw [← zpow_natCast, ← zpow_natCast, ← zpow_add₀ (by norm_num), sub_add_cancel]
      rw [Decimal.worth, mul_assoc, hpower, Nat.cast_mul, Nat.cast_pow, Nat.cast_ofNat]
    · exact nearest_of_readsBack hc.le hten rfl hspec.readsBack

/-- **What dumps contain for a finite double without sign is a scaled numeral**, of the worth of
its decimal. -/
theorem exists_scaled_trace (hc : c < infinityCode) : ∃ n : ScaledNumeral,
    n.text = Layout.trace.write (ofCode false c) ∧ n.worth = (decimalOf c).worth := by
  rw [trace_ofCode hc]
  exact (decimalOf c).exists_scaled (exists_number_decimalOf hc).1

theorem trace_ne_infinity (hc : c < infinityCode) :
    Layout.trace.write (ofCode false c) ≠ Layout.trace.write (ofCode false infinityCode) := by
  obtain ⟨n, htext, -⟩ := exists_scaled_trace hc
  obtain ⟨digit, rest, hcons, hdigit⟩ := n.exists_digit_text
  rw [← htext, hcons, trace_infinity]
  intro h
  rw [(List.cons.inj h).1] at hdigit
  exact absurd hdigit (by decide)

theorem code_eq_of_trace_eq_of_lt (hc : c < infinityCode) (hc' : c' < infinityCode)
    (h : Layout.trace.write (ofCode false c) = Layout.trace.write (ofCode false c')) : c = c' := by
  obtain ⟨n, htext, hworth⟩ := exists_scaled_trace hc
  obtain ⟨n', htext', hworth'⟩ := exists_scaled_trace hc'
  obtain ⟨-, number, hnumber, hnearest⟩ := exists_number_decimalOf hc
  obtain ⟨-, number', hnumber', hnearest'⟩ := exists_number_decimalOf hc'
  have hequal : n.worth = n'.worth := by
    rw [← n.worthOf_text, ← n'.worthOf_text, htext, htext', h]
  rw [hworth, hworth'] at hequal
  rw [hequal, hnumber'] at hnumber
  rw [← hnearest, ← hnearest', Nat.cast_inj.mp hnumber]

/-- **Dumped numbers differ**: two doubles without sign that dumps write alike are the same. -/
theorem code_eq_of_trace_eq (hc : c ≤ infinityCode) (hc' : c' ≤ infinityCode)
    (h : Layout.trace.write (ofCode false c) = Layout.trace.write (ofCode false c')) : c = c' := by
  rcases Nat.lt_or_eq_of_le hc with hlt | rfl
  · rcases Nat.lt_or_eq_of_le hc' with hlt' | rfl
    · exact code_eq_of_trace_eq_of_lt hlt hlt' h
    · exact absurd h (trace_ne_infinity hlt)
  · rcases Nat.lt_or_eq_of_le hc' with hlt' | rfl
    · exact absurd h.symm (trace_ne_infinity hlt')
    · rfl

end DeskCalculator
