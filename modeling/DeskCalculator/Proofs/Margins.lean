import DeskCalculator.Proofs.Stages
import DeskCalculator.Proofs.Text.Margin

/-!
# Margins of an expression

Trimming takes the margins off an expression, reading skips its blanks. The two differ in the
information separators, which are margin characters and no blanks: reading stops at the first one
(`lexAfter_margin`). So a text is read like its trimmed form if its margins are made of blanks, and
otherwise its first information separator is an unknown character, unless the trimmed form is at
fault before it is reached (`tokenize_of_leftSeparator`, `tokenize_of_trim_error`,
`tokenize_of_trim_ok`). Hence the exact condition for a text to be evaluated like its trimmed form
(`evaluate_eq_evaluate_trim_iff`).
-/

namespace DeskCalculator

open Token

/-- The first information separator of a margin: the first character that is no blank. -/
def informationSeparator? (margin : Text) : Option Char :=
  margin.find? fun c => !isBlank c

section

variable {text margin rest : Text} {c : Char} {fault : Fault} {tokens : List Token}

/-! ### Reading margins -/

theorem of_eq_lone_of_isMargin (hmargin : isMargin c = true) (hblank : isBlank c = false) :
    CharClass.of c = .lone ∧ c ∉ signs := by
  have hletter : isLetter c = false := Bool.eq_false_iff.mpr fun h =>
    Bool.eq_false_iff.mp (isMargin_of_isLetter h) hmargin
  have hnumeric : isNumeric c = false := Bool.eq_false_iff.mpr fun h =>
    Bool.eq_false_iff.mp (isMargin_of_isNumeric h) hmargin
  refine ⟨?_, fun hmem => ?_⟩
  · simp only [CharClass.of, hletter, hnumeric, hblank, Bool.false_eq_true, if_false]
  · have hsigns : (signs.all fun c => !isMargin c) = true := by decide +kernel
    have hnot := List.all_eq_true.mp hsigns c hmem
    rw [hmargin] at hnot
    cases hnot

/-- **Reading goes over the blanks of a margin** and stops at its first information separator. -/
theorem lexAfter_margin (h : ∀ c ∈ margin, isMargin c = true) (previous : Option Token)
    (rest : Text) : lexAfter previous (margin ++ rest) =
      (informationSeparator? margin).elim (lexAfter previous rest) fun c =>
        { fault := some (.unknownCharacter c) } := by
  unfold informationSeparator?
  induction margin with
  | nil => rfl
  | cons c margin ih =>
    rw [List.forall_mem_cons] at h
    rw [List.cons_append]
    cases hblank : isBlank c with
    | true =>
      rw [List.find?_cons_of_neg (by simp [hblank]), ← ih h.2]
      exact lexAfter_blanks (List.forall_mem_singleton.mpr hblank)
    | false =>
      obtain ⟨hlone, hsign⟩ := of_eq_lone_of_isMargin h.1 hblank
      rw [List.find?_cons_of_pos (by simp [hblank])]
      exact lexAfter_unknown_character hlone hsign

theorem apart_trim (text : Text) : Apart (trim text) (rightMargin text) := by
  intro c hc d hd
  obtain ⟨last, hlast, hmargin⟩ := exists_getLast?_trim fun hnil : trim text = [] => by
    rw [hnil] at hc
    cases hc
  obtain rfl : last = c := Option.some.inj (hlast.symm.trans hc)
  have hd' := isMargin_of_mem_rightMargin text d (List.mem_of_mem_head? hd)
  rw [joins_eq_false_iff]
  cases hblank : isBlank d with
  | true =>
    refine .inr fun heq => ?_
    rw [of_eq_blank_iff.mpr hblank] at heq
    rw [isMargin_of_isBlank (of_eq_blank_iff.mp heq.symm)] at hmargin
    cases hmargin
  | false =>
    rw [(of_eq_lone_of_isMargin hd' hblank).1]
    exact (em _).imp_right fun hne heq => hne heq.symm

theorem tokenize_of_leftSeparator (h : informationSeparator? (leftMargin text) = some c) :
    tokenize text = .error (.unknownCharacter c) := by
  have hlex := lexAfter_margin (isMargin_of_mem_leftMargin text) none (trim text ++ rightMargin text)
  rw [margins_append_trim, h] at hlex
  simp only [tokenize, lex, hlex, Option.elim_some]

theorem lex_of_blank_leftMargin (h : informationSeparator? (leftMargin text) = none) :
    lex text = lex (trim text ++ rightMargin text) := by
  have hlex := lexAfter_margin (isMargin_of_mem_leftMargin text) none (trim text ++ rightMargin text)
  rwa [margins_append_trim, h] at hlex

/-- Behind a left margin of blanks a fault of the trimmed form is reported. -/
theorem tokenize_of_trim_error (hleft : informationSeparator? (leftMargin text) = none)
    (h : tokenize (trim text) = .error fault) : tokenize text = .error fault := by
  rw [← h]
  refine tokenize_congr ?_
  rw [lex_of_blank_leftMargin hleft, lex_append_of_tokenize_error (apart_trim text) h]

theorem tokenize_of_trim_ok (hleft : informationSeparator? (leftMargin text) = none)
    (h : tokenize (trim text) = .ok tokens) : tokenize text =
      (informationSeparator? (rightMargin text)).elim (.ok tokens) fun c =>
        .error (.unknownCharacter c) := by
  obtain ⟨last, hlex⟩ := lex_append_of_tokenize_ok (apart_trim text) h
  have hmargin := lexAfter_margin (isMargin_of_mem_rightMargin text) last []
  rw [List.append_nil] at hmargin
  rw [← lex_of_blank_leftMargin hleft, hmargin] at hlex
  cases hright : informationSeparator? (rightMargin text) with
  | none =>
    rw [hright, Option.elim_none, lexAfter] at hlex
    simp only [tokenize, hlex, Lexed.behind, List.append_nil, Option.elim_none]
  | some c =>
    rw [hright, Option.elim_some] at hlex
    simp only [tokenize, hlex, Lexed.behind, Option.elim_some]

/-! ### Unknown characters -/

/-- The ninth character of a message, which tells what is unknown. -/
def Fault.ninth (message : String) : Option Char :=
  message.toList[8]?

theorem Fault.ninth_append {first : String} (middle last : String)
    (h : 8 < first.toList.length) : ninth (first ++ middle ++ last) = ninth first := by
  unfold ninth
  rw [String.toList_append, String.toList_append, List.append_assoc, List.getElem?_append_left h]

theorem Fault.eq_unknownCharacter (hkind : fault.kind = .unknownToken)
    (h : fault.message = (unknownCharacter c).message) : fault = .unknownCharacter c := by
  have hninth : ninth (unknownCharacter c).message = some 'c' :=
    (ninth_append _ _ (by decide +kernel)).trans (by decide +kernel)
  rw [← h] at hninth
  cases fault with
  | unknownCharacter d =>
    have hlist : ("Unknown character '" ++ String.singleton d ++ "'").toList =
        ("Unknown character '" ++ String.singleton c ++ "'").toList := congrArg String.toList h
    simp only [String.toList_append, List.append_left_inj, List.append_right_inj,
      String.toList_singleton, List.cons.injEq, and_true] at hlist
    rw [hlist]
  | unknownIdentifier word | malformedNumber word =>
    exact absurd ((ninth_append _ _ (by decide +kernel)).symm.trans hninth) (by decide +kernel)
  | _ => cases hkind

theorem evaluate_of_tokenize_error (hne : trim text ≠ []) (h : tokenize text = .error fault) :
    evaluate text = .failure fault.kind fault.message := by
  unfold evaluate
  rw [valueOf_eq_error_iff.mpr (.inr (.inl ⟨hne, h⟩))]

/-- **The outcome of an unknown character** tells that reading has stopped at it. -/
theorem evaluate_eq_unknownCharacter_iff (hne : trim text ≠ []) :
    evaluate text = .failure .unknownToken (Fault.unknownCharacter c).message ↔
      tokenize text = .error (.unknownCharacter c) := by
  refine ⟨fun h => ?_, evaluate_of_tokenize_error hne⟩
  unfold evaluate at h
  split at h
  · cases h
  · next fault hvalue =>
    injection h with hkind hmessage
    rw [← Fault.eq_unknownCharacter hkind hmessage]
    exact (tokenize_of_unknownToken hvalue hkind).2

end

/-! ### Evaluating with margins -/

theorem informationSeparator?_eq_none_iff {margin : Text} :
    informationSeparator? margin = none ↔ ∀ c ∈ margin, isBlank c = true := by
  unfold informationSeparator?
  simp

/-- **When margins do not matter.** A text is evaluated like its trimmed form exactly if it is
nothing but margin, if its margins are made of blanks, or if the trimmed form cannot be read anyway
and reading the text does not stop earlier at another character: the first information separator in
the left margin, if there is one, has to be the unknown character of the trimmed form. -/
theorem evaluate_eq_evaluate_trim_iff (text : Text) :
    evaluate text = evaluate (trim text) ↔
      trim text = [] ∨ (∀ c ∈ leftMargin text ++ rightMargin text, isBlank c = true) ∨
        ∃ fault, tokenize (trim text) = .error fault ∧
          ∀ c, informationSeparator? (leftMargin text) = some c → fault = .unknownCharacter c := by
  by_cases hblank : trim text = []
  · refine iff_of_true ?_ (.inl hblank)
    unfold evaluate valueOf
    rw [if_pos hblank, trim_trim, if_pos hblank]
  have htrim : trim (trim text) ≠ [] := by rwa [trim_trim]
  rw [or_iff_right hblank, List.forall_mem_append, ← informationSeparator?_eq_none_iff,
    ← informationSeparator?_eq_none_iff]
  cases hleft : informationSeparator? (leftMargin text) with
  | some c =>
    have htext := evaluate_of_tokenize_error hblank (tokenize_of_leftSeparator hleft)
    have hiff := evaluate_eq_unknownCharacter_iff (c := c) htrim
    rw [htext, eq_comm, Fault.kind, hiff]
    constructor
    · exact fun h => .inr ⟨_, h, fun d hd => by rw [Option.some.inj hd]⟩
    · rintro (⟨hnone, -⟩ | ⟨fault, h, hfault⟩)
      · cases hnone
      · rw [h, hfault c rfl]
  | none =>
    cases htokens : tokenize (trim text) with
    | error fault =>
      have htext := tokenize_of_trim_error hleft htokens
      exact iff_of_true (evaluate_congr hblank htrim (htext.trans htokens.symm))
        (.inr ⟨fault, rfl, fun c hc => by cases hc⟩)
    | ok tokens =>
      have htext := tokenize_of_trim_ok hleft htokens
      cases hright : informationSeparator? (rightMargin text) with
      | none =>
        rw [hright, Option.elim_none, ← htokens] at htext
        exact iff_of_true (evaluate_congr hblank htrim htext) (.inl ⟨rfl, rfl⟩)
      | some c =>
        -- The trimmed form has tokens, so its outcome is not that of an unknown character.
        rw [hright, Option.elim_some] at htext
        have hiff := evaluate_eq_unknownCharacter_iff (c := c) htrim
        rw [evaluate_of_tokenize_error hblank htext, eq_comm, Fault.kind, hiff, htokens]
        refine iff_of_false (fun h => by cases h) ?_
        rintro (⟨-, hnone⟩ | ⟨fault, h, -⟩)
        · cases hnone
        · cases h

/-- A one behind a file separator: the separator is trimmed, and otherwise it is an unknown
character. -/
theorem evaluate_separator_one :
    trim ['\x1c', '1'] = ['1'] ∧ evaluate ['1'] = .success 1 ['1'] ∧
    evaluate ['\x1c', '1'] = .failure .unknownToken (Fault.unknownCharacter '\x1c').message ∧
    ¬ ∀ text, evaluate text = evaluate (trim text) := by
  have htrim : trim ['\x1c', '1'] = ['1'] := by decide +kernel
  have hone : evaluate ['1'] = .success 1 ['1'] := by decide +kernel
  have hseparator : evaluate ['\x1c', '1'] =
      .failure .unknownToken (Fault.unknownCharacter '\x1c').message := by decide +kernel
  refine ⟨htrim, hone, hseparator, fun h => ?_⟩
  have heq := h ['\x1c', '1']
  rw [htrim, hone, hseparator] at heq
  cases heq

end DeskCalculator
