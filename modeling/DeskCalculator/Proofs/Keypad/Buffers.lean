import DeskCalculator.Proofs.Keypad.Throughout
import DeskCalculator.Proofs.Keypad.TypedExpression
import DeskCalculator.Proofs.Stages

/-!
# Buffers that are made by single keys

Where every text that is put into the buffer is a single key (`OfKey`), the buffer stays legible:
between any two points stands a separator, and neither a digit nor a right parenthesis is directly
before a left one (`Legible`). One key keeps a buffer so, since a second point is refused and a
product gets its sign (`Legible.placed`); what else is put into the buffer is a part of it, a plain
numeral or an expression of the history. So all texts are legible on every desk that is reached by
such intents, and no numeral of the history is malformed, since that would take two points without a
separator between them (`buffers_of_single_keys`).
-/

namespace DeskCalculator

/-! ### Legible texts -/

/-- **A legible text**: points are apart, and no left parenthesis is directly behind an operand that
would be multiplied. -/
structure Legible (text : Text) : Prop where
  points : PointsApart text
  product : ∀ before c after, text = before ++ c :: '(' :: after → isDigitSymbol c = false ∧ c ≠ ')'

variable {text first second middle : Text}

theorem pointsApart_of_count_le (h : text.count '.' ≤ 1) : PointsApart text := by
  rintro before middle after rfl
  simp only [List.count_append, List.count_cons, beq_self_eq_true, if_true] at h
  omega

theorem PointsApart.inner (h : PointsApart (first ++ middle ++ second)) : PointsApart middle := by
  rintro before between after rfl
  exact h (first ++ before) between (after ++ second) (by simp)

theorem Legible.inner (h : Legible (first ++ middle ++ second)) : Legible middle := by
  refine ⟨h.points.inner, ?_⟩
  rintro before c after rfl
  exact h.product (first ++ before) c (after ++ second) (by simp)

theorem legible_nil : Legible [] :=
  ⟨pointsApart_of_count_le (Nat.zero_le _), fun before c after heq => by simp at heq⟩

/-- Points put behind a text are apart from those before them if none would be refused. -/
theorem PointsApart.append (h : PointsApart first)
    (h' : ∀ k < second.length, second[k]? = some '.' → '.' ∉ segment (first ++ second.take k)) :
    PointsApart (first ++ second) := by
  rw [pointsApart_iff] at h ⊢
  intro k hk hpoint
  rcases Nat.lt_or_ge k first.length with hlt | hge
  · rw [List.getElem?_append_left hlt] at hpoint
    rw [List.take_append_of_le_length hlt.le]
    exact h k hlt hpoint
  · rw [List.getElem?_append_right hge] at hpoint
    rw [List.take_append, List.take_of_length_le hge]
    rw [List.length_append] at hk
    exact h' (k - first.length) (by omega) hpoint

theorem PointsApart.append_of_not_mem (h : PointsApart first) (hne : '.' ∉ second) :
    PointsApart (first ++ second) :=
  h.append fun _ _ hpoint => absurd (List.mem_of_getElem? hpoint) hne

theorem PointsApart.append_point (h : PointsApart first) (hne : '.' ∉ segment first) :
    PointsApart (first ++ ['.']) := by
  refine h.append fun k hk _ => ?_
  obtain rfl : k = 0 := by simpa using hk
  rwa [List.take_zero, List.append_nil]

/-- **Points of two texts with a separator between them** are apart if those of each are. -/
theorem PointsApart.append_separator {first second : Text} {c : Char} (h : PointsApart first)
    (h' : PointsApart second) (hc : isSeparator c = true) :
    PointsApart (first ++ [c] ++ second) := by
  have hne : '.' ∉ [c] := by
    intro hmem
    rw [← List.mem_singleton.mp hmem] at hc
    exact Bool.noConfusion hc
  refine (h.append_of_not_mem hne).append fun k hk hpoint => ?_
  rw [segment_append_of_separator _ _ hc]
  exact pointsApart_iff.mp h' k hk hpoint

theorem Legible.append (h : Legible first) (hpoints : PointsApart (first ++ second))
    (hne : '(' ∉ second) : Legible (first ++ second) := by
  refine ⟨hpoints, fun before c after heq => ?_⟩
  have hheq : first ++ second = (before ++ [c]) ++ '(' :: after := by simpa using heq
  rcases List.append_eq_append_iff.mp hheq with ⟨middle, -, hsecond⟩ | ⟨middle, hfirst, hmiddle⟩
  · exact absurd (by rw [hsecond]; simp) hne
  · cases middle with
    | nil => exact absurd (by rw [← List.nil_append second, ← hmiddle]; simp) hne
    | cons d middle =>
      obtain ⟨rfl, -⟩ := List.cons.inj hmiddle
      exact h.product before c middle (by simpa using hfirst)

/-! ### Keys -/

theorem isMargin_of_isDigitSymbol {c : Char} (h : isDigitSymbol c = true) : isMargin c = false := by
  rcases Bool.or_eq_true_iff.mp h with h | h
  · exact isMargin_of_isDecimalDigit h
  · unfold isMargin isBlank
    rw [Bool.or_eq_false_iff]
    exact ⟨Ranges.has_of_has (by decide +kernel) h, Ranges.has_of_has (by decide +kernel) h⟩

theorem last_of_not_impliesProduct {before : Text} {c : Char}
    (h : impliesProduct (before ++ [c]) = false) : isDigitSymbol c = false ∧ c ≠ ')' := by
  have hlast : ∀ (hc : (isDigitSymbol c || c == ')') = true), False := by
    intro hc
    have hmargin : isMargin c = false := by
      rcases Bool.or_eq_true_iff.mp hc with hc | hc
      · exact isMargin_of_isDigitSymbol hc
      · rw [eq_of_beq hc]
        decide +kernel
    have htrim : trimRight [c] = [c] := trimRight_eq_self fun d hd => by
      rwa [List.mem_singleton.mp hd]
    rw [impliesProduct_append, htrim, if_neg (List.cons_ne_nil _ _), impliesProduct, htrim] at h
    simp only [List.getLast?_singleton] at h
    rw [hc] at h
    cases h
  have hboth := Bool.eq_false_iff.mpr hlast
  rw [Bool.or_eq_false_iff] at hboth
  exact ⟨hboth.1, by simpa using hboth.2⟩

theorem legible_leftParen {base : Text} (h : Legible base)
    (hproduct : impliesProduct base = false) : Legible (base ++ ['(']) := by
  refine ⟨h.points.append_of_not_mem (by decide), fun before c after heq => ?_⟩
  rcases List.eq_nil_or_concat after with rfl | ⟨rest, d, rfl⟩
  · have hbase : base = before ++ [c] := by
      have hheq : base ++ ['('] = (before ++ [c]) ++ ['('] := by simpa using heq
      exact List.append_cancel_right hheq
    rw [hbase] at hproduct
    exact last_of_not_impliesProduct hproduct
  · have hheq : base ++ ['('] = (before ++ c :: '(' :: rest) ++ [d] := by simpa using heq
    exact h.product before c rest (List.append_inj_left' hheq rfl)

theorem Legible.placed {base key : Text} (h : Legible base) (hkey : IsKey key)
    (hpoint : key = ['.'] → '.' ∉ segment base) : Legible (placed base key) := by
  unfold DeskCalculator.placed
  by_cases hparen : key = ['(']
  · subst hparen
    cases hproduct : impliesProduct base with
    | true =>
      rw [if_pos ⟨rfl, rfl⟩, show (['*', '('] : Text) = ['*'] ++ ['('] from rfl,
        ← List.append_assoc]
      -- Behind the sign of the product no other product is implied.
      have hsign := h.append (h.points.append_of_not_mem (by decide : '.' ∉ ['*'])) (by decide)
      refine legible_leftParen hsign ?_
      rw [impliesProduct_append, if_neg (by decide +kernel)]
      decide +kernel
    | false =>
      rw [if_neg fun hboth => Bool.noConfusion hboth.2]
      exact legible_leftParen h hproduct
  · rw [if_neg fun hboth => hparen hboth.1]
    have hleft : '(' ∉ key := by
      intro hmem
      rcases hkey.separator with ⟨c, rfl, -⟩ | hplain
      · exact hparen (by rw [List.mem_singleton.mp hmem])
      · exact absurd (hplain _ hmem) (by decide)
    refine h.append ?_ hleft
    by_cases hmem : '.' ∈ key
    · obtain rfl := hkey.eq_point hmem
      exact h.points.append_point (hpoint rfl)
    · exact h.points.append_of_not_mem hmem

/-! ### What else is put into a buffer -/

theorem Legible.dropLast (h : Legible text) : Legible text.dropLast := by
  by_cases hne : text = []
  · rw [hne]
    exact legible_nil
  · rw [← List.nil_append text, ← List.dropLast_append_getLast hne, ← List.append_assoc] at h
    exact h.inner

theorem Legible.trim (h : Legible text) : Legible (trim text) := by
  rw [← margins_append_trim text, ← List.append_assoc] at h
  exact h.inner

theorem PlainNumeral.count_point_le (n : PlainNumeral) : n.text.count '.' ≤ 1 := by
  have hnone {digits : Text} (h : ∀ c ∈ digits, c.isDigit = true) : digits.count '.' = 0 :=
    List.count_eq_zero.mpr fun hmem => absurd (h _ hmem) (by decide)
  have hsign : (if n.negative then ['-'] else []).count '.' = 0 := by split <;> rfl
  unfold PlainNumeral.text PlainNumeral.unsigned
  rw [List.count_append, List.count_append, hsign, hnone n.isDigit_whole]
  split
  · decide
  · rw [List.count_cons, hnone n.isDigit_decimals]
    decide

theorem IsPlain.leftParen_not_mem (h : IsPlain text) : '(' ∉ text := by
  obtain ⟨n, rfl⟩ := h
  intro hmem
  rcases n.of_mem_text hmem with h | h | h <;> exact absurd h (by decide)

theorem IsPlain.legible (h : IsPlain text) : Legible text := by
  have hparen := h.leftParen_not_mem
  obtain ⟨n, rfl⟩ := h
  refine ⟨pointsApart_of_count_le n.count_point_le, fun before c after heq => ?_⟩
  exact absurd (by simp [heq]) hparen

/-! ### Pads -/

/-- **The texts of single keys**: those that known keys put into the buffer, and the keys of typed
lines. -/
def OfKey (text : Text) : Prop :=
  (∃ key, Key.intent? key = some (.append text)) ∨ ∃ line, text ∈ keystrokes line

theorem isKey_of_named? {token : Token} (h : Token.named? text = some token) : IsKey text :=
  have hmem := mem_vocabulary_iff.mpr ⟨token, h⟩
  ⟨by rintro rfl; exact absurd hmem (by decide), .inr (isLetter_of_mem_vocabulary hmem)⟩

theorem isKey_of_isAppendable (h : Key.isAppendable text = true) : IsKey text := by
  unfold Key.isAppendable at h
  split at h
  · next c => exact ⟨List.cons_ne_nil _ _, .inl ⟨c, rfl⟩⟩
  · obtain ⟨token, htoken⟩ := Option.isSome_iff_exists.mp h
    exact isKey_of_named? htoken

theorem lookup_actions_ne (key text : Text) : Key.actions.lookup key ≠ some (.append text) := by
  intro h
  obtain ⟨before, after, heq, -⟩ := List.lookup_eq_some_iff.mp h
  have hmem : (key, Intent.append text) ∈ Key.actions := by simp [heq]
  simp [Key.actions] at hmem

theorem isKey_of_ofKey (h : OfKey text) : IsKey text := by
  rcases h with ⟨key, hkey⟩ | ⟨line, hline⟩
  · unfold Key.intent? at hkey
    split at hkey
    · next intent hlookup => exact absurd (hlookup.trans hkey) (lookup_actions_ne key text)
    · split at hkey
      · next happend =>
        cases hkey
        exact isKey_of_isAppendable happend
      · cases hkey
  · exact isKey_of_mem_keystrokes hline

theorem lasting_legible : Lasting Legible where
  nil := legible_nil
  dropLast _ h := h.dropLast
  trim _ h := h.trim
  plain _ h := h.legible

theorem keptByTyping_legible (hkey : IsKey text) : KeptByTyping Legible text := by
  intro pad h
  unfold Pad.append
  split
  · exact h
  · next hnot =>
    show Legible (placed (pad.base text) text)
    rcases base_eq_or pad text with hbase | hbase
    · rw [hbase]
      exact h.placed hkey fun htext hmem => hnot (.inr ⟨htext, hmem⟩)
    · rw [hbase]
      exact legible_nil.placed hkey fun _ => not_mem_segment_nil

/-! ### Malformed numbers -/

namespace Fault

/-- How a message begins. -/
def opening (message : String) : Text :=
  message.toList.take 2

theorem opening_append {first : String} (rest : String) (h : 2 ≤ first.toList.length) :
    opening (first ++ rest) = opening first := by
  unfold opening
  rw [String.toList_append, List.take_append_of_le_length h]

theorem opening_append_append {first : String} (middle last : String)
    (h : 2 ≤ first.toList.length) : opening (first ++ middle ++ last) = opening first := by
  rw [opening_append, opening_append _ h]
  rw [String.toList_append, List.length_append]
  omega

theorem opening_malformedNumber (run : Text) :
    opening (malformedNumber run).message = ['M', 'a'] :=
  (opening_append_append _ _ (by decide +kernel)).trans (by decide +kernel)

theorem exists_malformedNumber {fault : Fault} (h : opening fault.message = ['M', 'a']) :
    ∃ run, fault = .malformedNumber run := by
  cases fault with
  | malformedNumber run => exact ⟨run, rfl⟩
  | unknownCharacter | unknownIdentifier | underflow | valueCount | unexpected =>
    exact absurd ((opening_append_append _ _ (by decide +kernel)).symm.trans h) (by decide +kernel)
  | cannotEvaluate | unknownConstant | unreadableNumber =>
    exact absurd ((opening_append _ (by decide +kernel)).symm.trans h) (by decide +kernel)
  | unknownFunction name =>
    -- The message is the quoted name, which begins with its mark.
    have hmark : quotationMark name ≠ 'M' := by
      unfold quotationMark
      split <;> decide
    have hlist : (Fault.unknownFunction name).message.toList = quoted name := String.toList_ofList
    rw [opening, hlist] at h
    exact absurd (List.cons.inj h).1 hmark
  | emptyExpression | misplacedComma | missingLeft | missingRight | divisionByZero
  | logarithmArgument | rootArgument | notFinite => exact absurd h (by decide +kernel)

end Fault

theorem isSeparator_of_isNumeric {c : Char} (h : isNumeric c = true) : isSeparator c = false := by
  rw [Bool.eq_false_iff]
  intro hsep
  simp only [isSeparator, isOperatorSign, Bool.or_eq_true, beq_iff_eq] at hsep
  rcases hsep with ((((((rfl | rfl) | rfl) | rfl) | rfl) | rfl) | rfl) <;>
    exact absurd h (by decide +kernel)

/-- **A run that begins like a number and is none has two points.** -/
theorem two_le_count_point (hrun : ∀ c ∈ text, isNumeric c = true)
    (hbegins : beginsNumber text = true) (h : ¬ IsNumeral text) : 2 ≤ text.count '.' := by
  have hdigits {part : Text} (hpart : ∀ c ∈ part, isNumeric c = true) (hne : '.' ∉ part) :
      ∀ c ∈ part, isPatternDigit c = true := fun c hc =>
    (isNumeric_iff.mp (hpart c hc)).resolve_right fun heq => hne (heq ▸ hc)
  by_contra hcount
  by_cases hmem : '.' ∈ text
  · obtain ⟨whole, decimals, rfl, hwhole⟩ := List.eq_append_cons_of_mem hmem
    rw [List.count_append, List.count_cons_self, List.count_eq_zero.mpr hwhole] at hcount
    have hdecimals : '.' ∉ decimals := List.count_eq_zero.mp (by omega)
    rw [List.forall_mem_append] at hrun
    refine h (isNumeral_iff.mpr ⟨whole, decimals, hdigits hrun.1 hwhole,
      hdigits (fun c hc => hrun.2 c (List.mem_cons_of_mem _ hc)) hdecimals, ?_, .inr rfl⟩)
    intro hnil
    obtain ⟨rfl, rfl⟩ := List.append_eq_nil_iff.mp hnil
    exact absurd hbegins (by decide +kernel)
  · refine h (isNumeral_iff.mpr ⟨text, [], hdigits hrun hmem, by simp, ?_, .inl ⟨rfl, rfl⟩⟩)
    rw [List.append_nil]
    rintro rfl
    cases hbegins

theorem exists_of_two_le_count {c : Char} (h : 2 ≤ text.count c) :
    ∃ before middle after, text = before ++ c :: middle ++ c :: after := by
  have hsub : [c, c].Sublist text := List.replicate_sublist_iff.mpr h
  obtain ⟨left, right, rfl, hleft, hright⟩ := List.cons_sublist_iff.mp hsub
  obtain ⟨before, middle, rfl⟩ := List.append_of_mem hleft
  obtain ⟨middle', after, rfl⟩ := List.append_of_mem (List.singleton_sublist.mp hright)
  exact ⟨before, middle ++ middle', after, by simp⟩

/-- Where no separator is, points that are apart are one at the most. -/
theorem PointsApart.count_le (h : PointsApart text) (hplain : ∀ c ∈ text, isSeparator c = false) :
    text.count '.' ≤ 1 := by
  by_contra hcount
  obtain ⟨before, middle, after, rfl⟩ := exists_of_two_le_count (Nat.lt_of_not_le hcount)
  obtain ⟨c, hc, hsep⟩ := h before middle after rfl
  rw [hplain c (by simp [hc])] at hsep
  cases hsep

/-- **No number of a legible text is malformed.** -/
theorem PointsApart.evaluate_ne (h : PointsApart text) (kind : FaultKind) (run : Text) :
    evaluate text ≠ .failure kind (Fault.malformedNumber run).message := by
  intro heval
  unfold evaluate at heval
  split at heval
  · cases heval
  · next fault hvalue =>
    injection heval with _ hmessage
    obtain ⟨run', rfl⟩ := Fault.exists_malformedNumber
      ((congrArg Fault.opening hmessage).trans (Fault.opening_malformedNumber run))
    obtain ⟨run'', hmem, hnot, hoffends⟩ :=
      Token.exists_offends_of_tokenize (tokenize_of_unknownToken hvalue rfl).2
    cases hoffends with
    | number hrun hbegins hread =>
      obtain ⟨before, after, hruns⟩ := List.append_of_mem hmem
      have htext : text = before.flatten ++ run' ++ after.flatten := by
        rw [← flatten_runs text, hruns]
        simp
      rw [htext] at h
      have hcount := h.inner.count_le fun c hc => isSeparator_of_isNumeric (hrun c hc)
      have htwo := two_le_count_point hrun hbegins fun hnumeral => hnot ⟨.numeral hnumeral, hread⟩
      omega

/-! ### Stretches -/

/-- The parts of a text between its separators. -/
def stretches (text : Text) : List Text :=
  text.splitOnP isSeparator

/-- The first stretch of a text, and the text behind its separator. -/
theorem stretches_append_cons {c : Char} (h : ∀ c ∈ first, isSeparator c = false)
    (hc : isSeparator c = true) (rest : Text) :
    stretches (first ++ c :: rest) = first :: stretches rest :=
  List.splitOnP_append_cons_of_forall_mem h c hc rest

theorem stretches_of_forall (h : ∀ c ∈ text, isSeparator c = false) : stretches text = [text] :=
  List.splitOnP_eq_singleton h

theorem exists_first_separator (text : Text) : (∀ c ∈ text, isSeparator c = false) ∨
    ∃ first c rest, text = first ++ c :: rest ∧ (∀ d ∈ first, isSeparator d = false) ∧
      isSeparator c = true := by
  induction text with
  | nil => exact .inl fun _ hc => nomatch hc
  | cons c text ih =>
    cases hc : isSeparator c with
    | true => exact .inr ⟨[], c, text, rfl, fun _ hd => (nomatch hd), hc⟩
    | false =>
      rcases ih with hplain | ⟨first, d, rest, rfl, hfirst, hd⟩
      · exact .inl (List.forall_mem_cons.mpr ⟨hc, hplain⟩)
      · exact .inr ⟨c :: first, d, rest, rfl, List.forall_mem_cons.mpr ⟨hc, hfirst⟩, hd⟩

theorem PointsApart.count_stretch_le (h : PointsApart text) :
    ∀ stretch ∈ stretches text, stretch.count '.' ≤ 1 := by
  induction hlength : text.length using Nat.strongRecOn generalizing text with
  | ind length ih =>
    rcases exists_first_separator text with hplain | ⟨first, c, rest, rfl, hfirst, hc⟩
    · rw [stretches_of_forall hplain]
      exact List.forall_mem_singleton.mpr (h.count_le hplain)
    · have hleft : PointsApart ([] ++ first ++ c :: rest) := h
      have hright : PointsApart ((first ++ [c]) ++ rest ++ []) := by simpa using h
      rw [stretches_append_cons hfirst hc]
      refine List.forall_mem_cons.mpr ⟨hleft.inner.count_le hfirst, ih _ ?_ hright.inner rfl⟩
      rw [← hlength, List.length_append, List.length_cons]
      omega

/-- **Sessions of single keys.** Where only single keys are put into the buffer, whatever the other
intents are: in the buffer and in every expression of the history, each stretch between two
separators has at most one point, and neither a digit nor a right parenthesis stands directly before
a left one. So no entry of the history has the message of a malformed number. -/
theorem buffers_of_single_keys (stamp : Nat → Stamp) (intents : List Intent)
    (hkeys : ∀ text, Intent.append text ∈ intents → OfKey text) :
    (∀ text, (text = (reached stamp intents).pad.buffer ∨
        ∃ entry ∈ (reached stamp intents).pad.history, text = entry.expression) →
      (∀ stretch ∈ stretches text, stretch.count '.' ≤ 1) ∧
      ∀ before c after, text = before ++ c :: '(' :: after →
        isDigitSymbol c = false ∧ c ≠ ')') ∧
    ∀ entry ∈ (reached stamp intents).pad.history, ∀ kind run,
      entry.outcome ≠ .failure kind (Fault.malformedNumber run).message := by
  have hlegible : Throughout Legible (reached stamp intents).pad :=
    throughout_dispatchAll lasting_legible stamp
      (fun key hmem => keptByTyping_legible (isKey_of_ofKey (hkeys key hmem)))
      lasting_legible.throughout_init
  constructor
  · rintro text (rfl | ⟨entry, hmem, rfl⟩)
    · exact ⟨hlegible.buffer.points.count_stretch_le, hlegible.buffer.product⟩
    · have hentry := hlegible.history entry hmem
      exact ⟨hentry.points.count_stretch_le, hentry.product⟩
  · intro entry hmem kind run
    rw [(genuine_reached intents).history entry hmem]
    exact (hlegible.history entry hmem).points.evaluate_ne kind run

/-- The keys of `1..2(`, an evaluation that fails, and a character taken off. -/
def productSession : List Intent :=
  (keystrokes "1..2(".toList).map .append ++ [.evaluate, .delete]

/-- The second point is refused, and the left parenthesis gets its sign. -/
theorem buffers_of_product :
    ((∀ text, Intent.append text ∈ productSession → OfKey text) ∧
      (reached countingStamp productSession).pad.buffer = "1.2*".toList) ∧
    (∀ stretch ∈ stretches "1.2*".toList, stretch.count '.' ≤ 1) ∧
    ∀ entry ∈ (reached countingStamp productSession).pad.history, ∀ kind run,
      entry.outcome ≠ .failure kind (Fault.malformedNumber run).message := by
  have hkeys : ∀ text, Intent.append text ∈ productSession → OfKey text := by
    intro text hmem
    have hline : text ∈ keystrokes "1..2(".toList := by simpa [productSession] using hmem
    exact .inr ⟨_, hline⟩
  have hbuffer : (reached countingStamp productSession).pad.buffer = "1.2*".toList := by
    decide +kernel
  obtain ⟨htexts, hhistory⟩ := buffers_of_single_keys countingStamp productSession hkeys
  exact ⟨⟨hkeys, hbuffer⟩, (htexts _ (.inl hbuffer.symm)).1, hhistory⟩

end DeskCalculator
