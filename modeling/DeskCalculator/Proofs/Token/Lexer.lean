import DeskCalculator.Proofs.Text.Digit
import DeskCalculator.Token.Lexer

/-!
# Reading one token

What `lexAfter` does with a text that begins with a token: one lemma for the names
(`lexAfter_word`), one for the numerals (`lexAfter_numeral`) and one for the single characters
(`lexAfter_symbol`). A numeral consists of digits with at most one point among them
(`Numeral.exists_of_read?`), and any such text is one (`Numeral.read?_digits`,
`Numeral.read?_point`).
-/

namespace DeskCalculator

theorem takeWhile_append_of_head? {p : Char → Bool} {first rest : Text}
    (hfirst : ∀ c ∈ first, p c = true) (hrest : ∀ c ∈ rest.head?, p c = false) :
    (first ++ rest).takeWhile p = first ∧ (first ++ rest).dropWhile p = rest := by
  rw [List.takeWhile_append_of_pos hfirst, List.dropWhile_append_of_pos hfirst]
  cases rest with
  | nil => simp
  | cons c rest => simp [hrest c rfl]

theorem isDecimalDigit_point : isDecimalDigit '.' = false := by decide +kernel

theorem isPatternDigit_point : isPatternDigit '.' = false := by decide +kernel

theorem isMargin_point : isMargin '.' = false := by decide +kernel

theorem isLetter_point : isLetter '.' = false := by decide +kernel

theorem isNumeric_iff {c : Char} : isNumeric c = true ↔ isPatternDigit c = true ∨ c = '.' := by
  simp [isNumeric]

theorem isNumeric_of_isDecimalDigit {c : Char} (h : isDecimalDigit c = true) :
    isNumeric c = true :=
  isNumeric_iff.mpr (.inl (isPatternDigit_of_isDecimalDigit h))

theorem isLetter_of_isNumeric {c : Char} (h : isNumeric c = true) : isLetter c = false := by
  rcases isNumeric_iff.mp h with h | rfl
  · exact isLetter_of_isPatternDigit h
  · exact isLetter_point

theorem isMargin_of_isNumeric {c : Char} (h : isNumeric c = true) : isMargin c = false := by
  rcases isNumeric_iff.mp h with h | rfl
  · exact isMargin_of_isPatternDigit h
  · exact isMargin_point

/-! ### Numerals -/

namespace Numeral

variable {whole decimals : Text}

theorem read?_digits (h : ∀ c ∈ whole, isDecimalDigit c = true) (hne : whole ≠ []) :
    read? whole = some (value whole []) := by
  obtain ⟨htake, hdrop⟩ : (whole ++ []).takeWhile isDecimalDigit = whole ∧
      (whole ++ []).dropWhile isDecimalDigit = [] := takeWhile_append_of_head? h (by simp)
  rw [List.append_nil] at htake hdrop
  unfold read?
  rw [htake, hdrop]
  simp [hne]

theorem read?_point (h : ∀ c ∈ whole, isDecimalDigit c = true)
    (h' : ∀ c ∈ decimals, isDecimalDigit c = true) (hne : whole ++ decimals ≠ []) :
    read? (whole ++ '.' :: decimals) = some (value whole decimals) := by
  obtain ⟨htake, hdrop⟩ : (whole ++ '.' :: decimals).takeWhile isDecimalDigit = whole ∧
      (whole ++ '.' :: decimals).dropWhile isDecimalDigit = '.' :: decimals :=
    takeWhile_append_of_head? h (by simp [isDecimalDigit_point])
  unfold read?
  rw [htake, hdrop]
  simp only
  rw [if_pos ⟨trivial, List.all_eq_true.mpr h', hne⟩]

/-- **A numeral is made of digits with at most one point among them.** -/
theorem exists_of_read? {run : Text} {v : Float} (h : read? run = some v) :
    ∃ whole decimals, (∀ c ∈ whole, isDecimalDigit c = true) ∧
      (∀ c ∈ decimals, isDecimalDigit c = true) ∧ whole ++ decimals ≠ [] ∧
      v = value whole decimals ∧
      (run = whole ∧ decimals = [] ∨ run = whole ++ '.' :: decimals) := by
  have hsplit : run.takeWhile isDecimalDigit ++ run.dropWhile isDecimalDigit = run :=
    List.takeWhile_append_dropWhile
  have hwhole : ∀ c ∈ run.takeWhile isDecimalDigit, isDecimalDigit c = true :=
    List.all_eq_true.mp List.all_takeWhile
  unfold read? at h
  simp only at h
  split at h
  · next hdrop =>
    split at h
    · cases h
    · next hne =>
      rw [hdrop, List.append_nil] at hsplit
      exact ⟨_, [], hwhole, by simp, by rwa [List.append_nil], (Option.some.inj h).symm,
        .inl ⟨hsplit.symm, rfl⟩⟩
  · next point decimals hdrop =>
    split at h
    · next hcond =>
      obtain ⟨rfl, hdecimals, hne⟩ := hcond
      rw [hdrop] at hsplit
      exact ⟨_, decimals, hwhole, List.all_eq_true.mp hdecimals, hne, (Option.some.inj h).symm,
        .inr hsplit.symm⟩
    · cases h

theorem isNumeric_of_read? {run : Text} {v : Float} (h : read? run = some v) :
    ∀ c ∈ run, isNumeric c = true := by
  obtain ⟨whole, decimals, hwhole, hdecimals, -, -, hrun⟩ := exists_of_read? h
  intro c hc
  rcases hrun with ⟨rfl, -⟩ | rfl
  · exact isNumeric_of_isDecimalDigit (hwhole c hc)
  · rcases List.mem_append.mp hc with hc | hc
    · exact isNumeric_of_isDecimalDigit (hwhole c hc)
    rcases List.mem_cons.mp hc with rfl | hc
    · exact isNumeric_iff.mpr (.inr rfl)
    · exact isNumeric_of_isDecimalDigit (hdecimals c hc)

theorem ne_nil_of_read? {run : Text} {v : Float} (h : read? run = some v) : run ≠ [] := by
  rintro rfl
  cases h

theorem beginsNumber_of_read? {run : Text} {v : Float} (h : read? run = some v) (rest : Text) :
    beginsNumber (run ++ rest) = true := by
  obtain ⟨whole, decimals, hwhole, hdecimals, hne, -, hrun⟩ := exists_of_read? h
  cases whole with
  | cons c whole =>
    have hc := isPatternDigit_of_isDecimalDigit (hwhole c List.mem_cons_self)
    rcases hrun with ⟨rfl, -⟩ | rfl <;> simp [beginsNumber, hc]
  | nil =>
    cases decimals with
    | nil => exact absurd rfl hne
    | cons d decimals =>
      have hd := isPatternDigit_of_isDecimalDigit (hdecimals d List.mem_cons_self)
      rcases hrun with ⟨-, hnil⟩ | rfl
      · cases hnil
      · simp [beginsNumber, hd]

end Numeral

/-! ### Tokens at the beginning of a text -/

namespace Token

variable {previous : Option Token} {rest : Text}

theorem lexAfter_word {word : Text} {token : Token} (hword : ∀ c ∈ word, isLetter c = true)
    (hne : word ≠ []) (hrest : ∀ c ∈ rest.head?, isLetter c = false)
    (hnamed : named? word = some token) :
    lexAfter previous (word ++ rest) = (lexAfter (some token) rest).after token := by
  cases word with
  | nil => exact absurd rfl hne
  | cons c word =>
    have hc := hword c List.mem_cons_self
    obtain ⟨htake, hdrop⟩ := takeWhile_append_of_head?
      (fun x hx => hword x (List.mem_cons_of_mem c hx)) hrest
    rw [List.cons_append, lexAfter, isBlank_eq_false (isMargin_of_isLetter hc), htake, hdrop,
      if_neg Bool.false_ne_true, if_pos hc]
    simp only [hnamed]

theorem lexAfter_numeral {run : Text} {value : Float} (hread : Numeral.read? run = some value)
    (hrest : ∀ c ∈ rest.head?, isNumeric c = false) :
    lexAfter previous (run ++ rest) =
      (lexAfter (some (number value)) rest).after (number value) := by
  have hrun := Numeral.isNumeric_of_read? hread
  have hbegins := Numeral.beginsNumber_of_read? hread rest
  cases run with
  | nil => cases hread
  | cons c run =>
    have hc := hrun c List.mem_cons_self
    obtain ⟨htake, hdrop⟩ := takeWhile_append_of_head?
      (fun x hx => hrun x (List.mem_cons_of_mem c hx)) hrest
    rw [List.cons_append] at hbegins ⊢
    rw [lexAfter, isBlank_eq_false (isMargin_of_isNumeric hc), isLetter_of_isNumeric hc, htake,
      hdrop, if_neg Bool.false_ne_true, if_neg Bool.false_ne_true, if_pos hbegins]
    simp only [hread]

/-- A sign of an expression: neither margin nor letter nor part of a numeral. -/
def isSign (c : Char) : Bool :=
  !isMargin c && !isLetter c && !isNumeric c

theorem lexAfter_symbol {c : Char} {token : Token} (hc : isSign c = true)
    (hsymbol : symbol? previous c = some token) :
    lexAfter previous (c :: rest) = (lexAfter (some token) rest).after token := by
  simp only [isSign, Bool.and_eq_true, Bool.not_eq_true'] at hc
  obtain ⟨⟨hmargin, hletter⟩, hnumeric⟩ := hc
  have hbegins : beginsNumber (c :: rest) = false := by
    rw [isNumeric, Bool.or_eq_false_iff] at hnumeric
    simp [beginsNumber, hnumeric]
  rw [lexAfter, isBlank_eq_false hmargin, hletter, hbegins, hsymbol]
  simp only [Bool.false_eq_true, if_false]

end Token

end DeskCalculator
