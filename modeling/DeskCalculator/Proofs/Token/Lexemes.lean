import DeskCalculator.Proofs.Token.Printing

/-!
# The lexemes of a text

The lexemes of a text are its maximal runs that are not blank. Where a text has tokens, they are
spelled by its lexemes, one by one and in order (`forall₂_spells_of_tokenize`). The induction goes
over the runs, with the tokens read before them.
-/

namespace DeskCalculator

open Token

variable {run text : Text} {tokens before : List Token}

/-- **The lexemes of a text**: its runs that are not blank. -/
def lexemes (text : Text) : List Text :=
  (runs text).filter fun run => !run.all isBlank

/-! ### One lexeme -/

namespace Token

variable {token : Token}

theorem spells_of_named? {word : Text} (h : named? word = some token) : Spells token word := by
  have hknown := isKnown_of_named? h
  unfold named? at h
  split at h
  · obtain rfl := Option.some.inj h
    obtain ⟨f, rfl⟩ := hknown
    exact .function f
  split at h
  · obtain rfl := Option.some.inj h
    obtain ⟨k, rfl⟩ := hknown
    exact .constant k
  · cases h

theorem spells_of_symbol? {previous : Option Token} {c : Char}
    (h : symbol? previous c = some token) : Spells token [c] := by
  unfold symbol? at h
  split at h
  case h_1 => cases h; exact .operator .add
  case h_2 =>
    obtain rfl := Option.some.inj h
    split
    · exact .operator .negate
    · exact .operator .subtract
  case h_3 => cases h; exact .operator .multiply
  case h_4 => cases h; exact .operator .divide
  case h_5 => cases h; exact .operator .percent
  case h_6 => cases h; exact .leftParen
  case h_7 => cases h; exact .rightParen
  case h_8 => cases h; exact .comma
  case h_9 => cases h

/-- A readable run that is not blank spells a token that may stand behind the tokens before it. -/
theorem exists_spells_of_readable (h : Readable run) (hblank : run.all isBlank = false)
    (before : List Token) : ∃ token, Spells token run ∧ StandsBehind before token := by
  obtain ⟨h, hread⟩ := h
  cases h with
  | name h =>
    obtain ⟨token, hnamed⟩ := mem_vocabulary_iff.mp h
    have hname := isName_of_named? hnamed
    refine ⟨token, spells_of_named? hnamed, standsBehind_of_ne ?_ ?_⟩
    · rintro rfl
      cases hname
    · rintro rfl
      cases hname
  | numeral h =>
    obtain ⟨v, hv⟩ := isNumeral_and_isRead_iff.mp ⟨h, hread⟩
    exact ⟨number v, .number hv, standsBehind_number v⟩
  | blank h =>
    rw [List.all_eq_true.mpr h] at hblank
    cases hblank
  | sign h =>
    obtain ⟨token, hsymbol⟩ := (mem_signs_iff before.getLast?).mp h
    exact ⟨token, spells_of_symbol? hsymbol, standsBehind_of_symbol? hsymbol⟩

theorem apart_of_spells {rest : Text} (h : Spells token run) (happart : Apart run rest) :
    (token.isNumber = true → ∀ c ∈ rest.head?, isNumeric c = false) ∧
      (token.isName = true → ∀ c ∈ rest.head?, isLetter c = false) := by
  have hne := ne_nil_of_spells h
  constructor
  · intro hnumber c hc
    cases h with
    | number hread =>
      have hclass : ∀ d ∈ run, CharClass.of d = .numeric := fun d hd =>
        of_eq_numeric_iff.mpr (Numeral.isNumeric_of_read? hread d hd)
      exact Bool.eq_false_iff.mpr fun hn =>
        happart.of_ne hne hclass (by decide) c hc (of_eq_numeric_iff.mpr hn)
    | operator | function | constant | leftParen | rightParen | comma => cases hnumber
  · intro hname c hc
    have hmem := mem_vocabulary_iff.mpr ⟨token, named?_of_spells h hname⟩
    have hclass : ∀ d ∈ run, CharClass.of d = .letter := fun d hd =>
      of_eq_letter_iff.mpr (isLetter_of_mem_vocabulary hmem d hd)
    exact Bool.eq_false_iff.mpr fun hl =>
      happart.of_ne hne hclass (by decide) c hc (of_eq_letter_iff.mpr hl)

end Token

/-! ### All lexemes -/

/-- Readable runs are read to their end, and those that are not blank spell the tokens. -/
theorem exists_lexAfter_flatten {pieces : List Text} (hcut : Cut pieces)
    (h : ∀ run ∈ pieces, Readable run) (before : List Token) :
    ∃ tokens, lexAfter before.getLast? pieces.flatten = { tokens := tokens } ∧
      List.Forall₂ Spells tokens (pieces.filter fun run => !run.all isBlank) := by
  induction pieces generalizing before with
  | nil => exact ⟨[], by rw [List.flatten_nil, lexAfter], .nil⟩
  | cons run pieces ih =>
    obtain ⟨hrun, hpieces⟩ := List.forall_mem_cons.mp h
    rw [List.flatten_cons]
    cases hblank : run.all isBlank with
    | true =>
      rw [lexAfter_blanks (List.all_eq_true.mp hblank), List.filter_cons_of_neg (by simp [hblank])]
      exact ih hcut.tail hpieces before
    | false =>
      obtain ⟨token, hspells, hstands⟩ := exists_spells_of_readable hrun hblank before
      obtain ⟨hnumber, hname⟩ := apart_of_spells hspells hcut.apart_head
      obtain ⟨tokens, hlater, hwords⟩ := ih hcut.tail hpieces (before ++ [token])
      rw [List.getLast?_concat] at hlater
      refine ⟨token :: tokens, ?_, ?_⟩
      · rw [lexAfter_spells hspells hstands hnumber hname, hlater]
        rfl
      · rw [List.filter_cons_of_pos (by simp [hblank])]
        exact .cons hspells hwords

/-- **The lexemes of a text spell its tokens**, in order. -/
theorem forall₂_spells_of_tokenize (h : tokenize text = .ok tokens) :
    List.Forall₂ Spells tokens (lexemes text) := by
  obtain ⟨read, hread, hwords⟩ :=
    exists_lexAfter_flatten (cut_runs text) (readable_of_tokenize h) []
  rw [flatten_runs] at hread
  obtain rfl : read = tokens :=
    congrArg Lexed.tokens (hread.symm.trans (tokenize_eq_ok_iff.mp h))
  exact hwords

end DeskCalculator
