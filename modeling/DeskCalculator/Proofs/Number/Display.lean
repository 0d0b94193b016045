import DeskCalculator.Evaluation
import DeskCalculator.Proofs.Number.Shortest
import DeskCalculator.Proofs.Text.Margin
import DeskCalculator.Proofs.Token.Lexer

/-!
# Shown numbers read back

What is shown for a finite double is a plain numeral: an optional minus, digits, and where it is not
an integer a point and further digits, the last of which is not a zero (`PlainNumeral`). A plain
numeral is an expression, and the one that is shown has the value that it was shown for
(`display_readsBack`).
-/

namespace DeskCalculator

/-- A number in positional notation, without superfluous decimals. -/
structure PlainNumeral where
  negative : Bool
  whole : Text
  decimals : Text
  isDigit_whole : ∀ c ∈ whole, c.isDigit = true
  whole_ne_nil : whole ≠ []
  isDigit_decimals : ∀ c ∈ decimals, c.isDigit = true
  getLast?_decimals : decimals.getLast? ≠ some '0'

namespace PlainNumeral

variable (n : PlainNumeral)

/-- The text without its sign. There is a point only before decimals. -/
def unsigned : Text :=
  n.whole ++ if n.decimals = [] then [] else '.' :: n.decimals

/-- The text of a plain numeral. -/
def text : Text :=
  (if n.negative then ['-'] else []) ++ n.unsigned

/-- What the text without its sign is worth. -/
def magnitude : Float :=
  Numeral.value n.whole n.decimals

theorem magnitude_eq : n.magnitude = Binary64.ofCode false
    (Binary64.nearest (digitsValue (n.whole ++ n.decimals)) (10 ^ n.decimals.length)) := rfl

/-- What a plain numeral is worth. -/
def value : Float :=
  if n.negative then -n.magnitude else n.magnitude

theorem read?_unsigned : Numeral.read? n.unsigned = some n.magnitude := by
  have hwhole : ∀ c ∈ n.whole, isDecimalDigit c = true :=
    fun c hc => isDecimalDigit_of_isDigit (n.isDigit_whole c hc)
  have hdecimals : ∀ c ∈ n.decimals, isDecimalDigit c = true :=
    fun c hc => isDecimalDigit_of_isDigit (n.isDigit_decimals c hc)
  unfold unsigned magnitude
  split
  · next h =>
    rw [h, List.append_nil]
    exact Numeral.read?_digits hwhole n.whole_ne_nil
  · exact Numeral.read?_point hwhole hdecimals (List.append_ne_nil_of_left_ne_nil n.whole_ne_nil _)

theorem of_mem_text {c : Char} (h : c ∈ n.text) : c.isDigit = true ∨ c = '.' ∨ c = '-' := by
  unfold text unsigned at h
  rcases List.mem_append.mp h with h | h
  · split at h
    · exact .inr (.inr (List.mem_singleton.mp h))
    · cases h
  rcases List.mem_append.mp h with h | h
  · exact .inl (n.isDigit_whole c h)
  split at h
  · cases h
  rcases List.mem_cons.mp h with h | h
  · exact .inr (.inl h)
  · exact .inl (n.isDigit_decimals c h)

theorem point_mem_text : '.' ∈ n.text ↔ n.decimals ≠ [] := by
  have hwhole : '.' ∉ n.whole := fun h => absurd (n.isDigit_whole _ h) (by decide)
  unfold text unsigned
  constructor
  · intro h hnil
    rw [if_pos hnil, List.append_nil] at h
    rcases List.mem_append.mp h with h | h
    · split at h
      · exact absurd (List.mem_singleton.mp h) (by decide)
      · cases h
    · exact hwhole h
  · intro hne
    rw [if_neg hne]
    simp

theorem head?_text : n.text.head? = some '-' ↔ n.negative = true := by
  have hne := n.whole_ne_nil
  have hdigit := n.isDigit_whole
  unfold text unsigned
  cases hneg : n.negative with
  | true => simp
  | false =>
    cases hw : n.whole with
    | nil => exact absurd hw hne
    | cons c whole =>
      have hc : c ≠ '-' := by
        rintro rfl
        exact absurd (hdigit '-' (by rw [hw]; exact List.mem_cons_self)) (by decide)
      simp [hc]

theorem text_ne_nil : n.text ≠ [] := by
  unfold text unsigned
  simp [n.whole_ne_nil]

theorem two_le_length_text (h : '.' ∈ n.text) : 2 ≤ n.text.length := by
  have hwhole := List.length_pos_iff.mpr n.whole_ne_nil
  unfold text unsigned
  rw [if_neg (n.point_mem_text.mp h), List.length_append, List.length_append, List.length_cons]
  omega

theorem isMargin_of_mem_text {c : Char} (h : c ∈ n.text) : isMargin c = false := by
  rcases n.of_mem_text h with h | rfl | rfl
  · exact isMargin_of_isDecimalDigit (isDecimalDigit_of_isDigit h)
  · exact isMargin_point
  · decide +kernel

theorem trim_text : trim n.text = n.text :=
  trim_eq_self fun _ hc => n.isMargin_of_mem_text hc

/-! ### As an expression -/

theorem valueOf_eq {text : Text} {tokens ordered : List Token} {v : Float} (htrim : trim text ≠ [])
    (htokens : Token.tokenize text = .ok tokens)
    (hordered : ReversePolish.ofTokens tokens = .ok ordered)
    (hrun : Machine.run ordered = .ok v) : valueOf text = .ok v := by
  unfold valueOf
  rw [if_neg htrim, htokens]
  simp only [hordered, hrun]

theorem run_number {x : Float} (h : x.isFinite = true) : Machine.run [.number x] = .ok x :=
  if_pos h

theorem run_negate {x : Float} (h : (-x).isFinite = true) :
    Machine.run [.number x, .operator .negate] = .ok (-x) :=
  if_pos h

theorem ofTokens_number (x : Float) : ReversePolish.ofTokens [.number x] = .ok [.number x] := rfl

theorem ofTokens_negate (x : Float) :
    ReversePolish.ofTokens [.operator .negate, .number x] = .ok [.number x, .operator .negate] :=
  rfl

theorem tokenize_text : Token.tokenize n.text = .ok
    (if n.negative then [.operator .negate, .number n.magnitude] else [.number n.magnitude]) := by
  have hread := n.read?_unsigned
  have hlex : ∀ previous, Token.lexAfter previous n.unsigned =
      { tokens := [.number n.magnitude] } := by
    intro previous
    have hend : Token.lexAfter previous (n.unsigned ++ []) =
        (Token.lexAfter (some (.number n.magnitude)) []).after (.number n.magnitude) :=
      Token.lexAfter_numeral hread (by simp)
    rw [List.append_nil] at hend
    rw [hend, Token.lexAfter]
    rfl
  unfold Token.tokenize Token.lex text
  split
  · rw [List.singleton_append, Token.lexAfter_symbol (by decide +kernel) rfl, hlex]
    rfl
  · rw [List.nil_append, hlex]

theorem valueOf_text (h : n.value.isFinite = true) : valueOf n.text = .ok n.value := by
  have htrim : trim n.text ≠ [] := by
    rw [n.trim_text]
    exact n.text_ne_nil
  have htokens := n.tokenize_text
  unfold value at *
  cases hneg : n.negative with
  | true =>
    rw [hneg] at h htokens
    exact valueOf_eq htrim htokens (ofTokens_negate _) (run_negate h)
  | false =>
    rw [hneg] at h htokens
    exact valueOf_eq htrim htokens (ofTokens_number _) (run_number h)

theorem evaluate_text (h : n.value.isFinite = true) :
    evaluate n.text = .success n.value (Layout.display.write n.value) := by
  unfold evaluate
  rw [n.valueOf_text h]

end PlainNumeral

/-! ### Decimals -/

namespace Decimal

variable (d : Decimal)

theorem isDigit_figures : ∀ c ∈ d.figures, c.isDigit = true :=
  fun _ hc => Nat.isDigit_of_mem_toDigits (by decide) (by decide) hc

theorem figures_ne_nil : d.figures ≠ [] :=
  Nat.toDigits_ne_nil

theorem isDigit_zeros (k : Nat) : ∀ c ∈ List.replicate k '0', c.isDigit = true := by
  intro c hc
  rw [List.eq_of_mem_replicate hc]
  rfl

/-- The digits of a decimal with enough zeros before them for a digit before the point. -/
def padded : Text :=
  List.replicate ((-d.place).toNat + 1 - d.figures.length) '0' ++ d.figures

theorem isDigit_padded : ∀ c ∈ d.padded, c.isDigit = true := by
  intro c hc
  rcases List.mem_append.mp hc with hc | hc
  · exact isDigit_zeros _ c hc
  · exact d.isDigit_figures c hc

theorem lt_length_padded : (-d.place).toNat < d.padded.length := by
  unfold padded
  rw [List.length_append, List.length_replicate]
  omega

theorem digitsValue_padded : digitsValue d.padded = d.digits := by
  rw [padded, digitsValue_append, digitsValue_replicate_zero, Nat.zero_mul, Nat.zero_add, figures,
    digitsValue_toDigits]

theorem getLast?_padded (h : d.digits % 10 ≠ 0) : d.padded.getLast? ≠ some '0' := by
  rw [padded, List.getLast?_append_of_ne_nil _ d.figures_ne_nil]
  exact getLast?_toDigits_ne_zero h

/-- How many of the padded digits stand before the point. -/
def wholeLength : Nat :=
  d.padded.length - (-d.place).toNat

theorem wholeLength_pos : 0 < d.wholeLength :=
  Nat.sub_pos_of_lt d.lt_length_padded

theorem length_sub_wholeLength : d.padded.length - d.wholeLength = (-d.place).toNat := by
  have := d.lt_length_padded
  unfold wholeLength
  omega

/-- A whole number: the digits, and zeros behind them. -/
def integral (negative : Bool) : PlainNumeral where
  negative := negative
  whole := d.figures ++ List.replicate d.place.toNat '0'
  decimals := []
  isDigit_whole := by
    intro c hc
    rcases List.mem_append.mp hc with hc | hc
    · exact d.isDigit_figures c hc
    · exact isDigit_zeros _ c hc
  whole_ne_nil := List.append_ne_nil_of_left_ne_nil d.figures_ne_nil _
  isDigit_decimals := fun c hc => absurd hc List.not_mem_nil
  getLast?_decimals := nofun

/-- A number with decimals: the last of the padded digits. -/
def fractional (negative : Bool) (hplace : d.place < 0) (h : d.digits % 10 ≠ 0) :
    PlainNumeral where
  negative := negative
  whole := d.padded.take d.wholeLength
  decimals := d.padded.drop d.wholeLength
  isDigit_whole := fun c hc => d.isDigit_padded c (List.mem_of_mem_take hc)
  whole_ne_nil := by
    have hlt := d.lt_length_padded
    have hpos := d.wholeLength_pos
    rw [← List.length_pos_iff, List.length_take]
    omega
  isDigit_decimals := fun c hc => d.isDigit_padded c (List.mem_of_mem_drop hc)
  getLast?_decimals := by
    have hlength := d.length_sub_wholeLength
    rw [List.getLast?_drop, if_neg (by omega)]
    exact d.getLast?_padded h

theorem decimals_fractional_ne_nil {negative : Bool} (hplace : d.place < 0)
    (h : d.digits % 10 ≠ 0) : (d.fractional negative hplace h).decimals ≠ [] := by
  show d.padded.drop d.wholeLength ≠ []
  rw [← List.length_pos_iff, List.length_drop, d.length_sub_wholeLength]
  omega

/-- **The positional notation of a decimal is a plain numeral**, if the decimal is a whole number or
does not end in a zero. -/
theorem exists_plain (h : 0 ≤ d.place ∨ d.digits % 10 ≠ 0) (negative : Bool) :
    ∃ n : PlainNumeral, n.negative = negative ∧ n.unsigned = d.positional [] ∧
      digitsValue (n.whole ++ n.decimals) = d.digits * 10 ^ d.place.toNat ∧
      n.decimals.length = (-d.place).toNat := by
  by_cases hplace : 0 ≤ d.place
  · refine ⟨d.integral negative, rfl, ?_, ?_, ?_⟩
    · simp [integral, PlainNumeral.unsigned, positional, hplace]
    · show digitsValue (d.figures ++ List.replicate d.place.toNat '0' ++ []) = _
      rw [List.append_nil, digitsValue_append, digitsValue_replicate_zero, List.length_replicate,
        figures, digitsValue_toDigits, Nat.add_zero]
    · show 0 = _
      omega
  · have hneg : d.place < 0 := Int.not_le.mp hplace
    have hdigits := h.resolve_left hplace
    refine ⟨d.fractional negative hneg hdigits, rfl, ?_, ?_, ?_⟩
    · rw [PlainNumeral.unsigned, if_neg (d.decimals_fractional_ne_nil hneg hdigits), positional,
        if_neg hplace]
      rfl
    · show digitsValue (d.padded.take d.wholeLength ++ d.padded.drop d.wholeLength) = _
      rw [List.take_append_drop, digitsValue_padded,
        show d.place.toNat = 0 by omega, Nat.pow_zero, Nat.mul_one]
    · show (d.padded.drop d.wholeLength).length = _
      rw [List.length_drop, d.length_sub_wholeLength]

end Decimal

/-! ### What is shown -/

open Binary64

theorem write_display (d : Decimal) : d.write Layout.display = d.positional [] := rfl

theorem isInteger_of_code_eq_zero {v : Float} (hv : v.isFinite = true) (h0 : code v = 0) :
    IsInteger v := by
  rw [isInteger_iff hv, h0]
  exact Nat.dvd_zero _

theorem display_of_code_eq_zero {v : Float} (h0 : code v = 0) : Layout.display.write v = ['0'] := by
  unfold Layout.write
  simp only [h0]
  rw [if_neg (by decide), if_neg (by decide), if_pos trivial]
  rfl

theorem display_of_code_ne_zero {v : Float} (hv : v.isFinite = true) (h0 : code v ≠ 0) :
    Layout.display.write v =
      (if isNegative v then ['-'] else []) ++ (shortest (code v)).positional [] := by
  have hlt := (isFinite_iff v).mp hv
  unfold Layout.write
  simp only
  rw [if_neg (Nat.not_lt_of_lt hlt), if_neg hlt.ne, if_neg h0, write_display]

/-- The plain numeral of zero. -/
def PlainNumeral.zero : PlainNumeral where
  negative := false
  whole := ['0']
  decimals := []
  isDigit_whole := by
    intro c hc
    rw [List.mem_singleton.mp hc]
    rfl
  whole_ne_nil := List.cons_ne_nil _ _
  isDigit_decimals := fun c hc => absurd hc List.not_mem_nil
  getLast?_decimals := nofun

theorem PlainNumeral.value_zero : PlainNumeral.zero.value = 0 := by decide +kernel

/-- The plain numeral that is shown for a finite double. -/
theorem exists_plain_display {v : Float} (hv : v.isFinite = true) :
    ∃ n : PlainNumeral, n.text = Layout.display.write v ∧ (n.negative = true ↔ v < 0) ∧
      (n.decimals = [] ↔ IsInteger v) ∧ n.value = if v == 0 then 0 else v := by
  by_cases h0 : code v = 0
  · refine ⟨.zero, ?_, ?_, ?_, ?_⟩
    · rw [display_of_code_eq_zero h0]
      rfl
    · rw [lt_zero_iff hv]
      exact ⟨fun h => Bool.noConfusion h, fun h => absurd h0 h.2⟩
    · exact ⟨fun _ => isInteger_of_code_eq_zero hv h0, fun _ => rfl⟩
    · exact PlainNumeral.value_zero.trans (if_pos ((beq_zero_iff hv).mpr h0)).symm
  · have hlt := (isFinite_iff v).mp hv
    obtain ⟨factor, power, hshort, hspec⟩ := exists_shortest h0
    obtain ⟨n, hneg, hunsigned, hdigits, hlength⟩ :=
      Decimal.exists_plain ⟨factor, power - (unitExponent + 1 : Nat)⟩ (.inr hspec.mod_ten_ne_zero)
        (isNegative v)
    simp only at hdigits hlength
    have hmagnitude : n.magnitude = ofCode false (code v) := by
      have hbelow : (-((power : Int) - (unitExponent + 1 : Nat))).toNat =
          unitExponent + 1 - power := by omega
      have habove : ((power : Int) - (unitExponent + 1 : Nat)).toNat =
          power - (unitExponent + 1) := by omega
      rw [n.magnitude_eq, hdigits, hlength, hbelow, habove, hspec.nearest hlt]
    refine ⟨n, ?_, ?_, ?_, ?_⟩
    · rw [display_of_code_ne_zero hv h0, PlainNumeral.text, hneg, hunsigned, hshort]
    · rw [lt_zero_iff hv, hneg]
      exact ⟨fun h => ⟨h, h0⟩, fun h => h.1⟩
    · rw [hspec.isInteger_iff hv h0, ← List.length_eq_zero_iff, hlength]
      omega
    · rw [if_neg (fun h => h0 ((beq_zero_iff hv).mp h)), PlainNumeral.value, hneg, hmagnitude,
        neg_ofCode hlt]
      refine Eq.trans ?_ (ofCode_code v)
      split
      · next h => rw [h, Bool.not_false]
      · next h => rw [Bool.eq_false_iff.mpr h]

/-- A text that a plain numeral has. -/
def IsPlain (text : Text) : Prop :=
  ∃ n : PlainNumeral, n.text = text

/-- What is shown for a finite double is an expression of the same value, zero without its sign. -/
theorem evaluate_display {v : Float} (hv : v.isFinite = true) :
    evaluate (Layout.display.write v) =
      .success (if v == 0 then 0 else v) (Layout.display.write v) := by
  obtain ⟨n, htext, -, -, hvalue⟩ := exists_plain_display hv
  have hfinite : n.value.isFinite = true := by
    rw [hvalue]
    split
    · rfl
    · exact hv
  have hshown : Layout.display.write n.value = Layout.display.write v := by
    rw [hvalue]
    split
    · next h0 =>
      rw [display_of_code_eq_zero ((beq_zero_iff hv).mp h0), display_of_code_eq_zero rfl]
    · rfl
  rw [← htext, n.evaluate_text hfinite, hshown, hvalue, htext]

/-- **Shown numbers read back.** What is shown for a finite double is a plain numeral. It has a
point if the double is not an integer, a minus if it is less than zero and no exponent. As an
expression it is worth the double that it was shown for (zero has no sign). -/
theorem display_readsBack {v : Float} (hv : v.isFinite = true) :
    IsPlain (Layout.display.write v) ∧
      'e' ∉ Layout.display.write v ∧ 'E' ∉ Layout.display.write v ∧
      ('.' ∈ Layout.display.write v ↔ ¬ IsInteger v) ∧
      ((Layout.display.write v).head? = some '-' ↔ v < 0) ∧
      evaluate (Layout.display.write v) =
        .success (if v == 0 then 0 else v) (Layout.display.write v) := by
  have hback := evaluate_display hv
  obtain ⟨n, htext, hneg, hinteger, -⟩ := exists_plain_display hv
  rw [← htext] at hback ⊢
  refine ⟨⟨n, rfl⟩, ?_, ?_, ?_, ?_, hback⟩
  · exact fun h => absurd (n.of_mem_text h) (by decide)
  · exact fun h => absurd (n.of_mem_text h) (by decide)
  · rw [n.point_mem_text, ne_eq, hinteger]
  · rw [n.head?_text, hneg]

theorem display_readsBack_ofSmall : (-1e-7 : Float).isFinite = true ∧
    evaluate ['-', '0', '.', '0', '0', '0', '0', '0', '0', '1'] =
      .success (-1e-7) ['-', '0', '.', '0', '0', '0', '0', '0', '0', '1'] := by
  have hfinite : (-1e-7 : Float).isFinite = true := by decide +kernel
  have hshown : Layout.display.write (-1e-7) =
      ['-', '0', '.', '0', '0', '0', '0', '0', '0', '1'] := by decide +kernel
  have hnonzero : ((-1e-7 : Float) == 0) = false := by decide +kernel
  obtain ⟨-, -, -, -, -, hback⟩ := display_readsBack hfinite
  rw [hnonzero, if_neg Bool.false_ne_true, hshown] at hback
  exact ⟨hfinite, hback⟩

end DeskCalculator
