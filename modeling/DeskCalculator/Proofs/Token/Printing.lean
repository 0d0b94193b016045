import DeskCalculator.Proofs.Keypad.Spelling
import DeskCalculator.Proofs.Number.Zero
import DeskCalculator.Proofs.Stages

/-!
# Printed tokens are read back

Tokens are printed one after another, each behind a gap of blanks that may be empty where the
neighbours cannot be read as one (`RunsInto`). Both minuses are printed by the same sign, so the
tokens that can be read back are those whose minuses stand where they are read as what they are
(`SignsInPlace`). Such tokens are read back from their print, and whatever text is read, the minuses
of its tokens stand in this way (`tokenize_layOut`).

The induction goes over the tokens with those before them, since the reader knows the token before a
sign (`lexAfter_spaced`, `signsInPlace_lexAfter`).
-/

namespace DeskCalculator

namespace Token

variable {token next : Token} {before tokens : List Token} {word text : Text}

/-! ### Where a minus stands -/

/-- An operand begins behind nothing, an operator, a left parenthesis or a comma. -/
def BeginsOperand (before : List Token) : Prop :=
  ∀ token ∈ before.getLast?, (∃ op, token = operator op) ∨ token = leftParen ∨ token = comma

/-- A minus before an operand is its sign, any other is an operator between two. -/
def StandsBehind (before : List Token) (token : Token) : Prop :=
  (token = operator .negate → BeginsOperand before) ∧
    (token = operator .subtract → ¬ BeginsOperand before)

/-- **Each minus of the tokens stands in its place**, with other tokens before them all. -/
def SignsInPlace (before tokens : List Token) : Prop :=
  ∀ first token rest, tokens = first ++ token :: rest → StandsBehind (before ++ first) token

theorem allowsSign_getLast? : allowsSign before.getLast? = true ↔ BeginsOperand before := by
  unfold BeginsOperand
  cases hlast : before.getLast? with
  | none => simp [allowsSign]
  | some token => cases token <;> simp [allowsSign]

theorem signsInPlace_nil : SignsInPlace before [] := by
  intro first token rest h
  cases first <;> cases h

theorem signsInPlace_cons : SignsInPlace before (token :: tokens) ↔
    StandsBehind before token ∧ SignsInPlace (before ++ [token]) tokens := by
  constructor
  · intro h
    refine ⟨by simpa using h [] token tokens rfl, ?_⟩
    rintro first next rest rfl
    rw [List.append_assoc]
    exact h (token :: first) next rest rfl
  · rintro ⟨hstands, h⟩ first next rest heq
    cases first with
    | nil =>
      obtain ⟨rfl, rfl⟩ := List.cons.inj heq
      rwa [List.append_nil]
    | cons other first =>
      obtain ⟨rfl, rfl⟩ := List.cons.inj heq
      have hlater := h first next rest rfl
      rwa [List.append_assoc] at hlater

theorem standsBehind_of_ne (h : token ≠ operator .negate) (h' : token ≠ operator .subtract) :
    StandsBehind before token :=
  ⟨fun heq => absurd heq h, fun heq => absurd heq h'⟩

theorem standsBehind_number (v : Float) : StandsBehind before (number v) :=
  standsBehind_of_ne (by simp) (by simp)

theorem symbol?_sign {op : Operator} (h : StandsBehind before (operator op)) :
    symbol? before.getLast? op.sign = some (operator op) := by
  cases op with
  | negate => simp [Operator.sign, symbol?, allowsSign_getLast?.mpr (h.1 rfl)]
  | subtract =>
    have hplace : ¬ allowsSign before.getLast? = true := fun hs =>
      h.2 rfl (allowsSign_getLast?.mp hs)
    simp [Operator.sign, symbol?, hplace]
  | add | multiply | divide | percent => rfl

theorem standsBehind_of_symbol? {c : Char} (h : symbol? before.getLast? c = some token) :
    StandsBehind before token := by
  unfold symbol? at h
  split at h
  case h_2 =>
    obtain rfl := Option.some.inj h
    split
    · next hsign => exact ⟨fun _ => allowsSign_getLast?.mp hsign, nofun⟩
    · next hsign => exact ⟨nofun, fun _ hbegins => hsign (allowsSign_getLast?.mpr hbegins)⟩
  case h_9 => cases h
  all_goals
    cases h
    exact standsBehind_of_ne nofun nofun

/-! ### Tokens with gaps -/

/-- Printed as a number. -/
def isNumber : Token → Bool
  | number _ => true
  | _ => false

/-- Printed as a name. -/
def isName : Token → Bool
  | function _ | constant _ => true
  | _ => false

/-- Two tokens that would be read as one if there were no gap between them. -/
def RunsInto (token next : Token) : Prop :=
  token.isNumber = true ∧ next.isNumber = true ∨ token.isName = true ∧ next.isName = true

theorem not_runsInto (h : token.isNumber = false ∨ next.isNumber = false)
    (h' : token.isName = false ∨ next.isName = false) : ¬ token.RunsInto next := by
  rintro (⟨htoken, hnext⟩ | ⟨htoken, hnext⟩)
  · rcases h with h | h
    · exact absurd (h.symm.trans htoken) Bool.false_ne_true
    · exact absurd (h.symm.trans hnext) Bool.false_ne_true
  · rcases h' with h' | h'
    · exact absurd (h'.symm.trans htoken) Bool.false_ne_true
    · exact absurd (h'.symm.trans hnext) Bool.false_ne_true

/-- **Spellings of tokens with blanks between them**, at least where two would be read as one. -/
inductive Spaced : List Token → Text → Prop
  | nil {gap : Text} (hgap : ∀ c ∈ gap, isBlank c = true) : Spaced [] gap
  | cons {token : Token} {tokens : List Token} {gap word rest : Text}
      (hgap : ∀ c ∈ gap, isBlank c = true) (hword : Spells token word)
      (hrest : Spaced tokens rest)
      (hapart : ∀ next ∈ tokens.head?, token.RunsInto next → ∀ c ∈ rest.head?, isBlank c = true) :
      Spaced (token :: tokens) (gap ++ (word ++ rest))

theorem Spaced.cons_word {rest : Text} (hword : Spells token word) (hrest : Spaced tokens rest)
    (hapart : ∀ next ∈ tokens.head?, ¬ token.RunsInto next) :
    Spaced (token :: tokens) (word ++ rest) :=
  .cons (fun _ hc => absurd hc List.not_mem_nil) hword hrest fun next hnext hruns =>
    absurd hruns (hapart next hnext)

theorem spaced_singleton (hword : Spells token word) : Spaced [token] word := by
  have hspaced := Spaced.cons_word hword (.nil fun _ hc => absurd hc List.not_mem_nil)
    fun _ hnext => nomatch hnext
  rwa [List.append_nil] at hspaced

theorem isName_of_named? (h : named? word = some token) : token.isName = true := by
  unfold named? at h
  split at h
  · cases h
    rfl
  split at h
  · cases h
    rfl
  · cases h

theorem isNumber_of_symbol? {previous : Option Token} {c : Char}
    (h : symbol? previous c = some token) : token.isNumber = false := by
  unfold symbol? at h
  split at h <;> cases h <;> rfl

theorem isNumeric_of_spells (h : Spells token word) (hnumber : token.isNumber = false) :
    ∀ c ∈ word, isNumeric c = false := by
  have hall : word.all (!isNumeric ·) = true := by
    cases h with
    | number h => cases hnumber
    | operator op => cases op <;> decide +kernel
    | function f => cases f <;> decide +kernel
    | constant k => cases k <;> decide +kernel
    | leftParen => decide +kernel
    | rightParen => decide +kernel
    | comma => decide +kernel
  intro c hc
  simpa using List.all_eq_true.mp hall c hc

theorem isLetter_of_spells (h : Spells token word) (hname : token.isName = false) :
    ∀ c ∈ word, isLetter c = false := by
  have hall : word.all (!isLetter ·) = true := by
    cases h with
    | number h =>
      rw [List.all_eq_true]
      intro c hc
      rw [isLetter_of_isNumeric (Numeral.isNumeric_of_read? h c hc)]
      rfl
    | operator op => cases op <;> decide +kernel
    | function f => cases hname
    | constant k => cases hname
    | leftParen => decide +kernel
    | rightParen => decide +kernel
    | comma => decide +kernel
  intro c hc
  simpa using List.all_eq_true.mp hall c hc

theorem named?_of_spells (h : Spells token word) (hname : token.isName = true) :
    named? word = some token := by
  cases h with
  | number h => cases hname
  | operator op => cases hname
  | function f => cases f <;> decide
  | constant k => cases k <;> decide
  | leftParen => cases hname
  | rightParen => cases hname
  | comma => cases hname

theorem Spaced.head? (h : Spaced tokens text) : ∀ c ∈ text.head?,
    isBlank c = true ∨ ∃ next ∈ tokens.head?, ∃ word, Spells next word ∧ c ∈ word := by
  intro c hc
  cases h with
  | nil hgap => exact .inl (hgap c (List.mem_of_mem_head? hc))
  | @cons token tokens gap word rest hgap hword hrest hapart =>
    cases gap with
    | nil =>
      rw [List.nil_append, List.head?_append_of_ne_nil _ (ne_nil_of_spells hword)] at hc
      exact .inr ⟨token, rfl, word, hword, List.mem_of_mem_head? hc⟩
    | cons d gap =>
      obtain rfl := Option.some.inj hc
      exact .inl (hgap d List.mem_cons_self)

theorem Spaced.apart (hrest : Spaced tokens text)
    (hapart : ∀ next ∈ tokens.head?, token.RunsInto next → ∀ c ∈ text.head?, isBlank c = true) :
    (token.isNumber = true → ∀ c ∈ text.head?, isNumeric c = false) ∧
      (token.isName = true → ∀ c ∈ text.head?, isLetter c = false) := by
  have hblank {c : Char} (h : isBlank c = true) : isNumeric c = false ∧ isLetter c = false := by
    have hmargin := isMargin_of_isBlank h
    exact ⟨Bool.eq_false_iff.mpr fun hn => Bool.eq_false_iff.mp (isMargin_of_isNumeric hn) hmargin,
      Bool.eq_false_iff.mpr fun hl => Bool.eq_false_iff.mp (isMargin_of_isLetter hl) hmargin⟩
  constructor
  · intro htoken c hc
    rcases hrest.head? c hc with h | ⟨next, hnext, word, hword, hmem⟩
    · exact (hblank h).1
    · cases hnumber : next.isNumber with
      | true => exact (hblank (hapart next hnext (.inl ⟨htoken, hnumber⟩) c hc)).1
      | false => exact isNumeric_of_spells hword hnumber c hmem
  · intro htoken c hc
    rcases hrest.head? c hc with h | ⟨next, hnext, word, hword, hmem⟩
    · exact (hblank h).2
    · cases hname : next.isName with
      | true => exact (hblank (hapart next hnext (.inr ⟨htoken, hname⟩) c hc)).2
      | false => exact isLetter_of_spells hword hname c hmem

/-- **A word is read as its token**, where the text behind it does not go on with it and the token
stands in its place. -/
theorem lexAfter_spells {rest : Text} (hword : Spells token word)
    (hstands : StandsBehind before token)
    (hnumber : token.isNumber = true → ∀ c ∈ rest.head?, isNumeric c = false)
    (hname : token.isName = true → ∀ c ∈ rest.head?, isLetter c = false) :
    lexAfter before.getLast? (word ++ rest) = (lexAfter (some token) rest).after token := by
  cases hword with
  | number hread => exact lexAfter_numeral hread (hnumber rfl)
  | operator op =>
    refine lexAfter_symbol ?_ (symbol?_sign hstands)
    cases op <;> decide +kernel
  | function f =>
    have hnamed := named?_of_spells (.function f) rfl
    have hmem := mem_vocabulary_iff.mpr ⟨_, hnamed⟩
    exact lexAfter_word (isLetter_of_mem_vocabulary hmem) (ne_nil_of_spells (.function f))
      (hname rfl) hnamed
  | constant k =>
    have hnamed := named?_of_spells (.constant k) rfl
    have hmem := mem_vocabulary_iff.mpr ⟨_, hnamed⟩
    exact lexAfter_word (isLetter_of_mem_vocabulary hmem) (ne_nil_of_spells (.constant k))
      (hname rfl) hnamed
  | leftParen => exact lexAfter_symbol (by decide +kernel) rfl
  | rightParen => exact lexAfter_symbol (by decide +kernel) rfl
  | comma => exact lexAfter_symbol (by decide +kernel) rfl

/-- **Spaced tokens are read back**, if each minus stands in its place. -/
theorem lexAfter_spaced (h : Spaced tokens text) (before : List Token)
    (hplace : SignsInPlace before tokens) :
    lexAfter before.getLast? text = { tokens := tokens } := by
  -- The tokens before are generalised, since each token is one of those before the next.
  induction h generalizing before with
  | @nil gap hgap =>
    have hblanks : lexAfter before.getLast? (gap ++ []) = lexAfter before.getLast? [] :=
      lexAfter_blanks hgap
    rw [List.append_nil] at hblanks
    rw [hblanks, lexAfter]
  | @cons token tokens gap word rest hgap hword hrest hapart ih =>
    obtain ⟨hstands, hplace⟩ := signsInPlace_cons.mp hplace
    obtain ⟨hnumber, hname⟩ := hrest.apart hapart
    have hlater := ih (before ++ [token]) hplace
    rw [List.getLast?_concat] at hlater
    rw [lexAfter_blanks hgap, lexAfter_spells hword hstands hnumber hname, hlater]
    rfl

/-- **The minuses of the tokens that are read stand in their places.** -/
theorem signsInPlace_lexAfter (before : List Token) :
    SignsInPlace before (lexAfter before.getLast? text).tokens := by
  generalize hprevious : before.getLast? = previous
  fun_induction lexAfter previous text generalizing before with
  | case1 => exact signsInPlace_nil
  | case2 previous c rest hblank ih => exact ih before hprevious
  | case3 previous c rest hblank hletter word token hnamed ih =>
    have hname := isName_of_named? hnamed
    refine signsInPlace_cons.mpr ⟨standsBehind_of_ne ?_ ?_, ih _ List.getLast?_concat⟩
    · rintro rfl
      cases hname
    · rintro rfl
      cases hname
  | case4 => exact signsInPlace_nil
  | case5 previous c rest hblank hletter hbegins run value hread ih =>
    exact signsInPlace_cons.mpr ⟨standsBehind_number value, ih _ List.getLast?_concat⟩
  | case6 => exact signsInPlace_nil
  | case7 previous c rest hblank hletter hbegins token hsymbol ih =>
    rw [← hprevious] at hsymbol
    exact signsInPlace_cons.mpr ⟨standsBehind_of_symbol? hsymbol, ih _ List.getLast?_concat⟩
  | case8 => exact signsInPlace_nil

/-- **The numbers that are read are not below zero.** -/
theorem zero_le_of_mem_lexAfter {previous : Option Token} :
    ∀ token ∈ (lexAfter previous text).tokens, ∀ v, token = number v → 0 ≤ v ∧ v ≠ -0.0 := by
  fun_induction lexAfter previous text with
  | case1 => exact fun _ h => absurd h List.not_mem_nil
  | case2 previous c rest hblank ih => exact ih
  | case3 previous c rest hblank hletter word token hnamed ih =>
    refine List.forall_mem_cons.mpr ⟨?_, ih⟩
    rintro v rfl
    cases isName_of_named? hnamed
  | case4 => exact fun _ h => absurd h List.not_mem_nil
  | case5 previous c rest hblank hletter hbegins run value hread ih =>
    refine List.forall_mem_cons.mpr ⟨?_, ih⟩
    rintro v heq
    obtain rfl := number.inj heq
    exact Numeral.zero_le_of_read? hread
  | case6 => exact fun _ h => absurd h List.not_mem_nil
  | case7 previous c rest hblank hletter hbegins token hsymbol ih =>
    refine List.forall_mem_cons.mpr ⟨?_, ih⟩
    rintro v rfl
    cases isNumber_of_symbol? hsymbol
  | case8 => exact fun _ h => absurd h List.not_mem_nil

/-! ### Printed tokens -/

/-- How a token is printed: a number as it is shown, both minuses by the same sign. -/
def printed : Token → Text
  | number value => Layout.display.write value
  | operator op => [op.sign]
  | function name | constant name => name
  | leftParen => ['(']
  | rightParen => [')']
  | comma => [',']

/-- The text of printed tokens, each behind its gap, with a gap at the end. -/
def layOut (last : Text) : List (Text × Token) → Text
  | [] => last
  | (gap, token) :: words => gap ++ (token.printed ++ layOut last words)

/-- A number that a numeral is worth: finite, not below zero and not the zero below. -/
def NumberOfNumeral (token : Token) : Prop :=
  ∀ v, token = number v → v.isFinite = true ∧ 0 ≤ v ∧ v ≠ -0.0

theorem numberOfNumeral_number {v : Float} (h : v.isFinite = true ∧ 0 ≤ v ∧ v ≠ -0.0) :
    (number v).NumberOfNumeral :=
  fun _ heq => number.inj heq ▸ h

theorem numberOfNumeral_of_isNumber (h : token.isNumber = false) : token.NumberOfNumeral := by
  rintro v rfl
  cases h

theorem spells_printed (hknown : token.IsKnown) (hnumber : token.NumberOfNumeral) :
    Spells token token.printed := by
  cases token with
  | number v =>
    obtain ⟨hfinite, hle, hne⟩ := hnumber v rfl
    have hread := read?_display hfinite hle
    rw [Binary64.unsignedZero_eq_self hfinite hne] at hread
    exact .number hread
  | operator op => exact .operator op
  | function name =>
    obtain ⟨f, rfl⟩ := hknown
    exact .function f
  | constant name =>
    obtain ⟨k, rfl⟩ := hknown
    exact .constant k
  | leftParen => exact .leftParen
  | rightParen => exact .rightParen
  | comma => exact .comma

/-- Printed tokens are spaced, if the gaps are of blanks and keep them apart. -/
theorem spaced_layOut {words : List (Text × Token)} {last : Text}
    (hwords : ∀ word ∈ words, Spells word.2 word.2.printed)
    (hgaps : ∀ word ∈ words, ∀ c ∈ word.1, isBlank c = true)
    (hlast : ∀ c ∈ last, isBlank c = true)
    (hapart : words.IsChain fun word next => word.2.RunsInto next.2 → next.1 ≠ []) :
    Spaced (words.map (·.2)) (layOut last words) := by
  induction words with
  | nil => exact .nil hlast
  | cons word words ih =>
    obtain ⟨gap, token⟩ := word
    obtain ⟨hword, hwords⟩ := List.forall_mem_cons.mp hwords
    obtain ⟨hgap, hgaps⟩ := List.forall_mem_cons.mp hgaps
    refine .cons hgap hword (ih hwords hgaps hapart.tail) ?_
    cases words with
    | nil => exact fun next hnext => nomatch hnext
    | cons next words =>
      obtain ⟨gap', token'⟩ := next
      rintro next hnext hruns c hc
      obtain rfl : token' = next := Option.some.inj hnext
      have hne : gap' ≠ [] := (List.isChain_cons_cons.mp hapart).1 hruns
      rw [layOut, List.head?_append_of_ne_nil _ hne] at hc
      exact hgaps (gap', token') List.mem_cons_self c (List.mem_of_mem_head? hc)

theorem tokenize_eq_ok_iff : tokenize text = .ok tokens ↔ lex text = { tokens := tokens } := by
  unfold tokenize
  obtain ⟨read, fault⟩ := lex text
  cases fault <;> simp

end Token

open Token

/-- **Printing tokens and reading them back.** Tokens whose names are known, whose numbers are
finite, not below zero and not the zero below, and whose minuses stand in their places are read back
from their print with any gaps of blanks before, between and behind them, where two numbers or two
names have a gap between them. Conversely the tokens that are read from any text have their minuses
in these places, known names and no number below zero. -/
theorem tokenize_layOut :
    (∀ (words : List (Text × Token)) (last : Text),
      (∀ word ∈ words, word.2.IsKnown ∧ word.2.NumberOfNumeral) →
      SignsInPlace [] (words.map (·.2)) →
      (∀ word ∈ words, ∀ c ∈ word.1, isBlank c = true) → (∀ c ∈ last, isBlank c = true) →
      (words.IsChain fun word next => word.2.RunsInto next.2 → next.1 ≠ []) →
      tokenize (layOut last words) = .ok (words.map (·.2))) ∧
    ∀ text tokens, tokenize text = .ok tokens →
      SignsInPlace [] tokens ∧ (∀ token ∈ tokens, token.IsKnown) ∧
        ∀ v, Token.number v ∈ tokens → 0 ≤ v := by
  constructor
  · intro words last hwords hplace hgaps hlast hapart
    have hspaced := spaced_layOut (fun word hword =>
      spells_printed (hwords word hword).1 (hwords word hword).2) hgaps hlast hapart
    exact tokenize_eq_ok_iff.mpr (lexAfter_spaced hspaced [] hplace)
  · intro text tokens htokens
    have hread : (lex text).tokens = tokens := by
      rw [tokenize_eq_ok_iff.mp htokens]
    rw [← hread]
    exact ⟨signsInPlace_lexAfter [], isKnown_of_mem_lexAfter,
      fun v hv => (zero_le_of_mem_lexAfter _ hv v rfl).1⟩

/-- A percentage with a minus behind it. -/
def percentWords : List (Text × Token) :=
  [([' '], .number 2.5), ([], .operator .percent), (['\t'], .operator .negate),
    ([], .constant Constant.pi.name), ([], .operator .subtract), ([], .number 7),
    ([' '], .number 0)]

/-- Behind a percent sign a minus is that of an operand, behind a name it is not. -/
theorem tokenize_layOut_percent :
    ((∀ word ∈ percentWords, word.2.IsKnown ∧ word.2.NumberOfNumeral) ∧
      SignsInPlace [] (percentWords.map (·.2)) ∧
      (percentWords.IsChain fun word next => word.2.RunsInto next.2 → next.1 ≠ []) ∧
      layOut [' '] percentWords = " 2.5%\t-pi-7 0 ".toList) ∧
    tokenize " 2.5%\t-pi-7 0 ".toList = .ok (percentWords.map (·.2)) := by
  have hother {token : Token} (h : token.isNumber = false) := numberOfNumeral_of_isNumber h
  have hwords : ∀ word ∈ percentWords, word.2.IsKnown ∧ word.2.NumberOfNumeral := by
    simp only [percentWords, List.forall_mem_cons]
    exact ⟨⟨trivial, numberOfNumeral_number (by decide +kernel)⟩, ⟨trivial, hother rfl⟩,
      ⟨trivial, hother rfl⟩, ⟨⟨.pi, rfl⟩, hother rfl⟩, ⟨trivial, hother rfl⟩,
      ⟨trivial, numberOfNumeral_number (by decide +kernel)⟩,
      ⟨trivial, numberOfNumeral_number (by decide +kernel)⟩, fun _ h => nomatch h⟩
  have hplace : SignsInPlace [] (percentWords.map (·.2)) := by
    simp [percentWords, signsInPlace_cons, signsInPlace_nil, StandsBehind, BeginsOperand]
  have hgaps : ∀ word ∈ percentWords, ∀ c ∈ word.1, isBlank c = true := by
    have hblank : isBlank ' ' = true ∧ isBlank '\t' = true := by decide +kernel
    simp [percentWords, hblank]
  have hlast : ∀ c ∈ [' '], isBlank c = true := by
    simpa using (by decide +kernel : isBlank ' ' = true)
  have hapart : percentWords.IsChain fun word next => word.2.RunsInto next.2 → next.1 ≠ [] := by
    simp [percentWords, RunsInto, isNumber, isName]
  have hprint : layOut [' '] percentWords = " 2.5%\t-pi-7 0 ".toList := by decide +kernel
  refine ⟨⟨hwords, hplace, hapart, hprint⟩, ?_⟩
  rw [← hprint]
  exact tokenize_layOut.1 percentWords [' '] hwords hplace hgaps hlast hapart

end DeskCalculator
