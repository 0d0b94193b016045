import DeskCalculator.Proofs.Keypad.Buffers

/-!
# The guard against a second point

A number ends where its run of digits and points does, and no numeral has two points
(`point_mem_iff_not_isNumeral`). The guard of the keypad looks further back than the number being
typed: it looks for a point behind the last sign of an operator or parenthesis. Between that and the
number there may be a comma, a name or a blank, so the guard refuses a point for the sake of an
earlier number too (`append_point_eq_self_iff`). It agrees with the rule for numerals exactly if it
finds no such earlier point, or if the number being typed has a point itself (`point_guard_iff`).
-/

namespace DeskCalculator

open Token

/-- The number being typed: the digits and points at the end of a buffer. -/
def lastNumber (buffer : Text) : Text :=
  (buffer.reverse.takeWhile isNumeric).reverse

/-- What stands before the number being typed. -/
def beforeNumber (buffer : Text) : Text :=
  (buffer.reverse.dropWhile isNumeric).reverse

variable {buffer run : Text}

/-! ### The number being typed -/

theorem beforeNumber_append_lastNumber (buffer : Text) :
    beforeNumber buffer ++ lastNumber buffer = buffer := by
  unfold beforeNumber lastNumber
  rw [← List.reverse_append, List.takeWhile_append_dropWhile, List.reverse_reverse]

theorem isNumeric_of_mem_lastNumber (buffer : Text) : ∀ c ∈ lastNumber buffer, isNumeric c = true :=
  fun c hc => List.all_eq_true.mp List.all_takeWhile c (List.mem_reverse.mp hc)

theorem isNumeric_getLast?_beforeNumber (buffer : Text) :
    ∀ c ∈ (beforeNumber buffer).getLast?, isNumeric c = false := by
  intro c hc
  unfold beforeNumber at hc
  rw [List.getLast?_reverse] at hc
  have hne : buffer.reverse.dropWhile isNumeric ≠ [] := by
    intro hnil
    rw [hnil] at hc
    cases hc
  rw [List.head?_eq_some_head hne] at hc
  rw [← Option.some.inj hc]
  simpa using List.head_dropWhile_not isNumeric hne

/-- The number being typed ends the last segment. -/
theorem segment_eq_append_lastNumber (buffer : Text) :
    segment buffer = segment (beforeNumber buffer) ++ lastNumber buffer := by
  rw [← segment_append_of_forall fun c hc =>
    isSeparator_of_isNumeric (isNumeric_of_mem_lastNumber buffer c hc),
    beforeNumber_append_lastNumber]

/-! ### Points of numerals -/

theorem IsNumeral.count_point_le (h : IsNumeral run) : run.count '.' ≤ 1 := by
  obtain ⟨whole, decimals, hwhole, hdecimals, hrun⟩ := h
  have hnone {digits : Text} (hdigits : ∀ c ∈ digits, isPatternDigit c = true) :
      digits.count '.' = 0 := by
    refine List.count_eq_zero.mpr fun hmem => ?_
    exact Bool.eq_false_iff.mp isPatternDigit_point (hdigits _ hmem)
  rcases hrun with ⟨-, rfl | rfl⟩ | ⟨-, rfl⟩
  · rw [hnone hwhole]
    exact Nat.zero_le _
  · rw [List.count_append, List.count_cons_self, hnone hwhole, hnone hdecimals]
  · rw [List.count_cons_self, hnone hdecimals]

theorem isPatternDigit_of_point_not_mem (hrun : ∀ c ∈ run, isNumeric c = true) (hne : '.' ∉ run) :
    ∀ c ∈ run, isPatternDigit c = true :=
  fun c hc => (isNumeric_iff.mp (hrun c hc)).resolve_right fun heq => hne (heq ▸ hc)

theorem not_isNumeral_of_point_mem (hmem : '.' ∈ run) (decimals : Text) :
    ¬ IsNumeral (run ++ '.' :: decimals) := by
  intro hnumeral
  have hone := hnumeral.count_point_le
  have hpos := List.count_pos_iff.mpr hmem
  rw [List.count_append, List.count_cons_self] at hone
  omega

/-- **A run takes a point exactly if it has none**: otherwise no numeral begins with the run and the
point, whatever follows. -/
theorem point_mem_iff_not_isNumeral (hrun : ∀ c ∈ run, isNumeric c = true) :
    '.' ∈ run ↔ ∀ decimals, ¬ IsNumeral (run ++ '.' :: decimals) := by
  refine ⟨not_isNumeral_of_point_mem, fun hnone => ?_⟩
  by_contra hne
  have hzero : ∀ c ∈ ['0'], isPatternDigit c = true :=
    List.forall_mem_singleton.mpr (by decide +kernel)
  exact hnone ['0'] (isNumeral_iff.mpr ⟨run, ['0'], isPatternDigit_of_point_not_mem hrun hne, hzero,
    List.append_ne_nil_of_right_ne_nil _ (List.cons_ne_nil _ _), .inr rfl⟩)

theorem isNumeral_append_point (hrun : ∀ c ∈ run, isNumeric c = true)
    (hbegins : beginsNumber run = true) (hne : '.' ∉ run) : IsNumeral (run ++ ['.']) := by
  refine isNumeral_iff.mpr
    ⟨run, [], isPatternDigit_of_point_not_mem hrun hne, by simp, ?_, .inr rfl⟩
  rw [List.append_nil]
  rintro rfl
  cases hbegins

theorem literal_append_point (hrun : ∀ c ∈ run, isNumeric c = true) (hmem : '.' ∈ run) :
    literal (run ++ ['.']) = literal run := by
  obtain ⟨whole, rest, rfl, hne⟩ := List.eq_append_cons_of_mem hmem
  have hwhole := isPatternDigit_of_point_not_mem
    (fun c hc => hrun c (List.mem_append_left _ hc)) hne
  have htake : (rest ++ ['.']).takeWhile isPatternDigit = rest.takeWhile isPatternDigit := by
    rw [List.takeWhile_append]
    split
    · next hlength =>
      rw [(List.takeWhile_prefix _).eq_of_length hlength]
      simp [isPatternDigit_point]
    · rfl
  rw [List.append_assoc, List.cons_append, literal_point hwhole, literal_point hwhole, htake]

/-- **The fault of a run with a further point** is that it is malformed, exactly if the run has a
point already and its literal can be read. -/
theorem read?_append_point_and_faultOfRun_iff (hrun : ∀ c ∈ run, isNumeric c = true)
    (hbegins : beginsNumber run = true) :
    Numeral.read? (run ++ ['.']) = none ∧
        faultOfRun (run ++ ['.']) = .malformedNumber (run ++ ['.']) ↔
      '.' ∈ run ∧ IsRead run := by
  unfold faultOfRun
  by_cases hmem : '.' ∈ run
  · -- The second point is behind the literal, which is therefore that of the run.
    rw [literal_append_point hrun hmem]
    have hnone : Numeral.read? (run ++ ['.']) = none := by
      refine Option.eq_none_iff_forall_ne_some.mpr fun v hv => ?_
      exact not_isNumeral_of_point_mem hmem [] (isNumeral_of_read? hv)
    cases hread : Numeral.read? (literal run) with
    | none =>
      refine iff_of_false (fun h => ?_) fun h => ?_
      · cases h.2
      · obtain ⟨v, hv⟩ := h.2 hbegins
        rw [hread] at hv
        cases hv
    | some v => exact iff_of_true ⟨hnone, rfl⟩ ⟨hmem, fun _ => ⟨v, hread⟩⟩
  · rw [(isNumeral_append_point hrun hbegins hmem).literal_eq]
    refine iff_of_false (fun h => ?_) fun h => hmem h.1
    rw [h.1] at h
    cases h.2

/-! ### Reading behind a point -/

theorem beginsNumber_append_point (text : Text) :
    beginsNumber (text ++ ['.']) = beginsNumber text := by
  cases text with
  | nil => decide +kernel
  | cons c rest =>
    cases rest with
    | nil =>
      show (isPatternDigit c || (c == '.' && isPatternDigit '.')) =
        (isPatternDigit c || (c == '.' && false))
      rw [isPatternDigit_point]
    | cons d rest => rfl

theorem apart_beforeNumber (buffer : Text) :
    Apart (beforeNumber buffer) (lastNumber buffer ++ ['.']) := by
  intro c hc d hd
  have hc' := isNumeric_getLast?_beforeNumber buffer c hc
  have hd' : isNumeric d = true := by
    rcases List.mem_append.mp (List.mem_of_mem_head? hd) with hmem | hmem
    · exact isNumeric_of_mem_lastNumber buffer d hmem
    · rw [List.mem_singleton.mp hmem]
      decide +kernel
  rw [joins_eq_false_iff]
  refine .inr fun heq => ?_
  rw [of_eq_numeric_iff.mpr hd'] at heq
  rw [of_eq_numeric_iff.mp heq.symm] at hc'
  cases hc'

/-- **A further point makes the number malformed** exactly if the number has a point, begins like a
number and can be read up to there; what stands before it has to be read without fault. -/
theorem tokenize_append_point_iff {tokens : List Token}
    (h : tokenize (beforeNumber buffer) = .ok tokens) :
    tokenize (buffer ++ ['.']) = .error (.malformedNumber (lastNumber buffer ++ ['.'])) ↔
      '.' ∈ lastNumber buffer ∧ beginsNumber (lastNumber buffer) = true ∧
        IsRead (lastNumber buffer) := by
  obtain ⟨last, hlex⟩ := lex_append_of_tokenize_ok (apart_beforeNumber buffer) h
  rw [← List.append_assoc, beforeNumber_append_lastNumber] at hlex
  have hnumber := isNumeric_of_mem_lastNumber buffer
  have hrun : ∀ c ∈ lastNumber buffer ++ ['.'], isNumeric c = true :=
    List.forall_mem_append.mpr ⟨hnumber, List.forall_mem_singleton.mpr (by decide +kernel)⟩
  have hne : lastNumber buffer ++ ['.'] ≠ [] :=
    List.append_ne_nil_of_right_ne_nil _ (List.cons_ne_nil _ _)
  have hend : ∀ c ∈ ([] : Text).head?, isNumeric c = false := fun c hc => by cases hc
  -- Reading the run alone: as the first part of a text with nothing behind it.
  have hnil : lexAfter last (lastNumber buffer ++ ['.']) =
      lexAfter last (lastNumber buffer ++ ['.'] ++ []) := by rw [List.append_nil]
  rw [hnil] at hlex
  cases hbegins : beginsNumber (lastNumber buffer) with
  | false =>
    rw [lexAfter_point hrun hne hend ((beginsNumber_append_point _).trans hbegins)] at hlex
    simp [tokenize, hlex, Lexed.behind]
  | true =>
    have hfault := read?_append_point_and_faultOfRun_iff hnumber hbegins
    rw [eq_self, true_and, ← hfault]
    cases hread : Numeral.read? (lastNumber buffer ++ ['.']) with
    | some v =>
      rw [lexAfter_numeral hread hend, lexAfter] at hlex
      simp [tokenize, hlex, Lexed.behind, Lexed.after]
    | none =>
      rw [lexAfter_no_number hrun hend ((beginsNumber_append_point _).trans hbegins) hread] at hlex
      simp [tokenize, hlex, Lexed.behind]

/-! ### The guard -/

variable {pad : Pad}

/-- **What the guard does**: a point is refused if there is one behind the last separator, and is
put behind the buffer otherwise. -/
theorem append_point (hmessage : pad.message = none)
    (hshown : pad.lastResult ≠ some (resultLine pad.buffer)) :
    pad.append ['.'] = if '.' ∈ segment pad.buffer then pad
      else { pad with buffer := pad.buffer ++ ['.'] } := by
  rw [append_of_message hmessage]
  split
  · next hmem => rw [struck_refused hmem]
  · next hne =>
    have hstruck : struck pad.lastResult pad.buffer ['.'] = pad.buffer ++ ['.'] := by
      rw [struck_eq (List.cons_ne_nil _ _) fun _ => hne, kept_of_ne hshown, kept_none,
        if_neg fun h => h.2 rfl, placed, if_neg fun h => absurd h.1 (by decide)]
    rw [hstruck]

/-- **A point is refused exactly if there is one behind the last separator**: in the number being
typed or before it. -/
theorem append_point_eq_self_iff (hmessage : pad.message = none)
    (hshown : pad.lastResult ≠ some (resultLine pad.buffer)) :
    pad.append ['.'] = pad ↔
      '.' ∈ segment (beforeNumber pad.buffer) ∨ '.' ∈ lastNumber pad.buffer := by
  rw [append_point hmessage hshown, segment_eq_append_lastNumber, ← List.mem_append]
  split
  · next hmem => exact iff_of_true rfl hmem
  · next hne =>
    refine iff_of_false (fun heq => ?_) hne
    have hbuffer : pad.buffer ++ ['.'] = pad.buffer := congrArg Pad.buffer heq
    exact List.cons_ne_nil _ _ (List.append_right_eq_self.mp hbuffer)

/-- **The guard and the rule for numerals.** Where no failure and no result is shown, a point is
refused exactly if there is one behind the last separator, and is put behind the buffer otherwise.
This agrees with the number being typed, that is, a point is refused exactly if the number has one,
if and only if no earlier point stands behind the last separator or the number has a point itself.
And this is the rule for numerals: a number has a point exactly if no numeral begins with the number
and a further point, and reading the buffer with a further point, where the text before the number
is read without fault, finds this number malformed exactly if it has a point, begins like a number
and has a literal that the number reader reads. -/
theorem point_guard_iff (pad : Pad) (hmessage : pad.message = none)
    (hshown : pad.lastResult ≠ some (resultLine pad.buffer)) :
    let number := lastNumber pad.buffer
    let before := beforeNumber pad.buffer
    (pad.append ['.'] = pad ∨ pad.append ['.'] = { pad with buffer := pad.buffer ++ ['.'] }) ∧
    (pad.append ['.'] = pad ↔ '.' ∈ segment before ∨ '.' ∈ number) ∧
    ((pad.append ['.'] = pad ↔ '.' ∈ number) ↔ ('.' ∈ segment before → '.' ∈ number)) ∧
    ('.' ∈ number ↔ ∀ rest, ¬ IsNumeral (number ++ '.' :: rest)) ∧
    ∀ tokens, tokenize before = .ok tokens →
      (tokenize (pad.buffer ++ ['.']) = .error (.malformedNumber (number ++ ['.'])) ↔
        '.' ∈ number ∧ beginsNumber number = true ∧ IsRead number) := by
  intro number before
  have hrefused := append_point_eq_self_iff hmessage hshown
  refine ⟨?_, hrefused, ?_, point_mem_iff_not_isNumeral (isNumeric_of_mem_lastNumber _),
    fun tokens => tokenize_append_point_iff⟩
  · rw [append_point hmessage hshown]
    split
    · exact .inl rfl
    · exact .inr rfl
  · rw [hrefused, or_iff_right_iff_imp]

/-- A pad with a sum in its buffer. -/
def sumTyped : Pad :=
  { buffer := "2+1.5".toList }

/-- Behind the sum 2+1.5 a point is refused, and 1.5 with a further point would be malformed. -/
theorem point_guard_sumTyped :
    (sumTyped.message = none ∧ sumTyped.lastResult ≠ some (resultLine sumTyped.buffer)) ∧
    sumTyped.append ['.'] = sumTyped ∧
    tokenize "2+1.5.".toList = .error (.malformedNumber "1.5.".toList) := by
  have hshown : sumTyped.lastResult ≠ some (resultLine sumTyped.buffer) := by
    intro heq
    cases heq
  have hbefore : tokenize (beforeNumber sumTyped.buffer) =
      .ok [.number 2, .operator .add] := by decide +kernel
  have hmem : '.' ∈ lastNumber sumTyped.buffer := by decide +kernel
  obtain ⟨-, hrefused, -, -, hmalformed⟩ := point_guard_iff sumTyped rfl hshown
  have hread : IsRead (lastNumber sumTyped.buffer) := fun _ =>
    Option.isSome_iff_exists.mp (by decide +kernel)
  exact ⟨⟨rfl, hshown⟩, hrefused.mpr (.inr hmem),
    (hmalformed _ hbefore).mpr ⟨hmem, by decide +kernel, hread⟩⟩

/-- The keys of a power whose two operands have points: behind `pow(1.5,2` the point is refused,
though the 2 has none and the text with the point can be read. -/
theorem point_refused_in_power :
    let pad := (keyed countingStamp {} (keystrokes "pow(1.5,2".toList)).pad
    pad.buffer = "pow(1.5,2".toList ∧ pad.message = none ∧ pad.lastResult = none ∧
    lastNumber pad.buffer = ['2'] ∧ pad.append ['.'] = pad ∧
    ¬ (pad.append ['.'] = pad ↔ '.' ∈ lastNumber pad.buffer) ∧
    tokenize (pad.buffer ++ ['.']) = .ok [.function Builtin.pow.name, .leftParen, .number 1.5,
      .comma, .number 2] := by
  decide +kernel

end DeskCalculator
