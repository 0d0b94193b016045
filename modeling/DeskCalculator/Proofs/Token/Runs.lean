import DeskCalculator.Proofs.Token.Lexer
import Mathlib.Data.List.SplitBy
import Mathlib.Data.List.TakeWhile

/-!
# Texts as runs

A text is cut into maximal runs of letters, of digits and points, and of blanks; any other character
is a run by itself (`runs`). A run is a lexeme if it is a name, a numeral, blank or a sign
(`Lexeme`), and it is readable if moreover the number reader reads the literal that it begins with
(`Readable`). Any other run has a fault (`Offends`). Reading goes over the readable runs one by one
and stops at the first run that is none (`lexAfter_flatten`, `lexAfter_of_not_readable`), so a text
has tokens exactly if all its runs are readable, and otherwise the fault of its leftmost other run.
Where the number reader reads all literals of the text, the readable runs are the lexemes
(`tokenize_iff_lexemes`). Two texts that stay apart are cut into the runs of each (`runs_append`), so
they are read one after the other unless the first has a fault (`lex_append_of_tokenize_ok`,
`lex_append_of_tokenize_error`).
-/

namespace DeskCalculator

/-! ### Runs -/

/-- The classes of characters: three that make runs, and the characters that stand alone. -/
inductive CharClass where
  | letter
  | numeric
  | blank
  | lone
  deriving DecidableEq, Repr

/-- The class of a character. -/
def CharClass.of (c : Char) : CharClass :=
  if isLetter c then .letter
  else if isNumeric c then .numeric
  else if isBlank c then .blank
  else .lone

/-- Whether a character goes on with the run of the one before it. -/
def joins (c d : Char) : Bool :=
  CharClass.of c == CharClass.of d && CharClass.of c != .lone

/-- **The maximal runs of a text.** -/
def runs (text : Text) : List Text :=
  text.splitBy joins

/-- The names of functions and constants. -/
def vocabulary : List Text :=
  Builtin.all.map Builtin.name ++ Constant.all.map Constant.name

example : vocabulary = ["sin", "cos", "tan", "log", "sqrt", "pow", "pi", "e"].map String.toList := by
  decide +kernel

/-- The operators and the punctuation. -/
def signs : List Char :=
  ['+', '-', '*', '/', '%', '(', ')', ',']

/-- Digits with an optional point and optional digits behind it, or a point and digits. -/
def IsNumeral (run : Text) : Prop :=
  ∃ whole decimals : Text, (∀ c ∈ whole, isPatternDigit c = true) ∧
    (∀ c ∈ decimals, isPatternDigit c = true) ∧
    (whole ≠ [] ∧ (run = whole ∨ run = whole ++ '.' :: decimals) ∨
      decimals ≠ [] ∧ run = '.' :: decimals)

/-- **The runs of which an expression may consist.** -/
inductive Lexeme : Text → Prop
  | name {run : Text} (h : run ∈ vocabulary) : Lexeme run
  | numeral {run : Text} (h : IsNumeral run) : Lexeme run
  | blank {run : Text} (h : ∀ c ∈ run, isBlank c = true) : Lexeme run
  | sign {c : Char} (h : c ∈ signs) : Lexeme [c]

/-- The number reader reads the literal that a run begins with, if it begins with one. -/
def IsRead (run : Text) : Prop :=
  beginsNumber run = true → ∃ v, Numeral.read? (literal run) = some v

/-- A lexeme whose number can be read. -/
def Readable (run : Text) : Prop :=
  Lexeme run ∧ IsRead run

/-- **The number reader reads every literal of a text** that the pattern of numbers matches. -/
def LiteralsRead (text : Text) : Prop :=
  ∀ run ∈ runs text, IsRead run

/-- The number reader knows every digit of a text. -/
def DigitsRead (text : Text) : Prop :=
  ∀ c ∈ text, isPatternDigit c = true → isDecimalDigit c = true

/-- **The fault of a run that cannot be read**, by the class of its characters. -/
inductive Offends : Text → Fault → Prop
  | word {run : Text} (h : ∀ c ∈ run, isLetter c = true) : Offends run (.unknownIdentifier run)
  | number {run : Text} (h : ∀ c ∈ run, isNumeric c = true) (hbegins : beginsNumber run = true)
      (hread : IsRead run) : Offends run (.malformedNumber run)
  | literal {run : Text} (h : ∀ c ∈ run, isNumeric c = true) (hbegins : beginsNumber run = true)
      (hread : ¬ IsRead run) : Offends run (.unreadableNumber (literal run))
  | point {run : Text} (h : ∀ c ∈ run, isNumeric c = true) (hbegins : beginsNumber run = false) :
      Offends run (.unknownCharacter '.')
  | character {c : Char} (h : CharClass.of c = .lone) : Offends [c] (.unknownCharacter c)

theorem Offends.kind_eq {run : Text} {fault : Fault} (h : Offends run fault) (hread : IsRead run) :
    fault.kind = .unknownToken := by
  cases h with
  | literal _ _ hnot => exact absurd hread hnot
  | word | number | point | character => rfl

/-! ### Classes -/

section

variable {c d : Char} {run rest : Text}

theorem of_eq_letter_iff : CharClass.of c = .letter ↔ isLetter c = true := by
  unfold CharClass.of
  constructor
  · intro h
    split at h
    · assumption
    split at h
    · cases h
    split at h <;> cases h
  · intro h
    rw [if_pos h]

theorem of_eq_numeric_iff : CharClass.of c = .numeric ↔ isNumeric c = true := by
  unfold CharClass.of
  constructor
  · intro h
    split at h
    · cases h
    split at h
    · assumption
    split at h <;> cases h
  · intro h
    rw [if_neg (Bool.eq_false_iff.mp (isLetter_of_isNumeric h)), if_pos h]

theorem of_eq_blank_iff : CharClass.of c = .blank ↔ isBlank c = true := by
  unfold CharClass.of
  constructor
  · intro h
    split at h
    · cases h
    split at h
    · cases h
    split at h
    · assumption
    · cases h
  · intro h
    have hmargin := isMargin_of_isBlank h
    have hletter : ¬ isLetter c = true := fun hl =>
      Bool.eq_false_iff.mp (isMargin_of_isLetter hl) hmargin
    have hnumeric : ¬ isNumeric c = true := fun hn =>
      Bool.eq_false_iff.mp (isMargin_of_isNumeric hn) hmargin
    rw [if_neg hletter, if_neg hnumeric, if_pos h]

theorem joins_eq_false_iff :
    joins c d = false ↔ CharClass.of c = .lone ∨ CharClass.of d ≠ CharClass.of c := by
  unfold joins
  rw [Bool.and_eq_false_iff, beq_eq_false_iff_ne, bne_eq_false_iff_eq, or_comm, ne_comm]

theorem of_eq_of_joins (h : joins c d = true) :
    CharClass.of d = CharClass.of c ∧ CharClass.of c ≠ .lone := by
  unfold joins at h
  rw [Bool.and_eq_true, beq_iff_eq, bne_iff_ne] at h
  exact ⟨h.1.symm, h.2⟩

/-- **The characters of a run are of one class**; a character that stands alone is a run. -/
theorem of_eq_of_isChain (h : (c :: run).IsChain fun c d => joins c d = true) :
    (∀ d ∈ c :: run, CharClass.of d = CharClass.of c) ∧
      (CharClass.of c = .lone → run = []) := by
  induction run generalizing c with
  | nil => exact ⟨fun d hd => by rw [List.mem_singleton.mp hd], fun _ => rfl⟩
  | cons d run ih =>
    obtain ⟨hjoins, hchain⟩ := List.isChain_cons_cons.mp h
    obtain ⟨hof, hlone⟩ := of_eq_of_joins hjoins
    refine ⟨fun x hx => ?_, fun hc => absurd hc hlone⟩
    rcases List.mem_cons.mp hx with rfl | hx
    · rfl
    · rw [(ih hchain).1 x hx, hof]

/-- A text behind a run that does not go on with it. -/
def Apart (run rest : Text) : Prop :=
  ∀ c ∈ run.getLast?, ∀ d ∈ rest.head?, joins c d = false

theorem apart_nil : Apart run [] := fun _ _ _ hd => nomatch hd

theorem Apart.of_ne {k : CharClass} (h : Apart run rest) (hne : run ≠ [])
    (hrun : ∀ c ∈ run, CharClass.of c = k) (hk : k ≠ .lone) :
    ∀ d ∈ rest.head?, CharClass.of d ≠ k := by
  intro d hd
  have hlast := hrun _ (List.getLast_mem hne)
  have hjoins := h _ (List.getLast?_eq_some_getLast hne) d hd
  rw [joins_eq_false_iff, hlast] at hjoins
  exact hjoins.resolve_left hk

end

/-! ### Lexemes -/

theorem isLetter_of_mem_vocabulary {run : Text} (h : run ∈ vocabulary) :
    ∀ c ∈ run, isLetter c = true :=
  List.all_eq_true.mp (List.all_eq_true.mp
    (show (vocabulary.all fun run => run.all isLetter) = true by decide +kernel) run h)

theorem mem_vocabulary_iff {run : Text} :
    run ∈ vocabulary ↔ ∃ token, Token.named? run = some token := by
  unfold vocabulary Token.named?
  rw [List.mem_append, List.mem_map, List.mem_map]
  constructor
  · rintro (⟨f, -, rfl⟩ | ⟨k, -, rfl⟩)
    · rw [Builtin.ofName?_eq_some_iff.mpr rfl]
      exact ⟨_, rfl⟩
    · rw [Constant.ofName?_eq_some_iff.mpr rfl]
      split <;> exact ⟨_, rfl⟩
  · rintro ⟨token, h⟩
    split at h
    · next hf =>
      obtain ⟨f, hf⟩ := Option.isSome_iff_exists.mp hf
      exact .inl ⟨f, by cases f <;> decide, Builtin.ofName?_eq_some_iff.mp hf⟩
    split at h
    · next hk =>
      obtain ⟨k, hk⟩ := Option.isSome_iff_exists.mp hk
      exact .inr ⟨k, by cases k <;> decide, Constant.ofName?_eq_some_iff.mp hk⟩
    · cases h

/-- A numeral has a digit, before the point or behind it. -/
theorem isNumeral_iff {run : Text} : IsNumeral run ↔
    ∃ whole decimals, (∀ c ∈ whole, isPatternDigit c = true) ∧
      (∀ c ∈ decimals, isPatternDigit c = true) ∧ whole ++ decimals ≠ [] ∧
      (run = whole ∧ decimals = [] ∨ run = whole ++ '.' :: decimals) := by
  constructor
  · rintro ⟨whole, decimals, hwhole, hdecimals, ⟨hne, rfl | rfl⟩ | ⟨hne, rfl⟩⟩
    · exact ⟨run, [], hwhole, by simp, by simpa using hne, .inl ⟨rfl, rfl⟩⟩
    · exact ⟨whole, decimals, hwhole, hdecimals, List.append_ne_nil_of_left_ne_nil hne _,
        .inr rfl⟩
    · exact ⟨[], decimals, by simp, hdecimals, hne, .inr rfl⟩
  · rintro ⟨whole, decimals, hwhole, hdecimals, hne, hrun⟩
    refine ⟨whole, decimals, hwhole, hdecimals, ?_⟩
    by_cases hnil : whole = []
    · subst hnil
      rcases hrun with ⟨-, rfl⟩ | hrun
      · exact absurd rfl hne
      · exact .inr ⟨hne, hrun⟩
    · exact .inl ⟨hnil, hrun.imp And.left id⟩

section

variable {run text : Text}

theorem isNumeral_of_read? {v : Float} (h : Numeral.read? run = some v) : IsNumeral run := by
  obtain ⟨whole, decimals, hwhole, hdecimals, hne, -, hrun⟩ := Numeral.exists_of_read? h
  exact isNumeral_iff.mpr ⟨whole, decimals,
    fun c hc => isPatternDigit_of_isDecimalDigit (hwhole c hc),
    fun c hc => isPatternDigit_of_isDecimalDigit (hdecimals c hc), hne, hrun⟩

theorem digitsRead_of_all (h : text.all (fun c => !isPatternDigit c || isDecimalDigit c) = true) :
    DigitsRead text := by
  intro c hc hdigit
  have := List.all_eq_true.mp h c hc
  simpa [hdigit] using this

theorem IsNumeral.exists_read? (h : IsNumeral run) (hdigits : DigitsRead run) :
    ∃ v, Numeral.read? run = some v := by
  obtain ⟨whole, decimals, hwhole, hdecimals, hne, ⟨rfl, rfl⟩ | rfl⟩ := isNumeral_iff.mp h
  · rw [List.append_nil] at hne
    exact ⟨_, Numeral.read?_digits (fun c hc => hdigits c hc (hwhole c hc)) hne⟩
  · have hmem {c : Char} (hc : c ∈ whole ∨ c ∈ decimals) : c ∈ whole ++ '.' :: decimals :=
      List.mem_append.mpr (hc.imp_right (List.mem_cons_of_mem _))
    exact ⟨_, Numeral.read?_point (fun c hc => hdigits c (hmem (.inl hc)) (hwhole c hc))
      (fun c hc => hdigits c (hmem (.inr hc)) (hdecimals c hc)) hne⟩

theorem IsNumeral.isNumeric (h : IsNumeral run) : ∀ c ∈ run, isNumeric c = true := by
  obtain ⟨whole, decimals, hwhole, hdecimals, -, hrun⟩ := isNumeral_iff.mp h
  intro c hc
  rw [isNumeric_iff]
  rcases hrun with ⟨rfl, -⟩ | rfl
  · exact .inl (hwhole c hc)
  · rcases List.mem_append.mp hc with hc | hc
    · exact .inl (hwhole c hc)
    rcases List.mem_cons.mp hc with rfl | hc
    · exact .inr rfl
    · exact .inl (hdecimals c hc)

theorem IsNumeral.beginsNumber_eq (h : IsNumeral run) : beginsNumber run = true := by
  obtain ⟨whole, decimals, hwhole, hdecimals, hne, hrun⟩ := isNumeral_iff.mp h
  cases whole with
  | cons c whole =>
    have hc := hwhole c List.mem_cons_self
    rcases hrun with ⟨rfl, -⟩ | rfl <;> simp [beginsNumber, hc]
  | nil =>
    cases decimals with
    | nil => exact absurd rfl hne
    | cons d decimals =>
      have hd := hdecimals d List.mem_cons_self
      rcases hrun with ⟨-, hnil⟩ | rfl
      · cases hnil
      · simp [beginsNumber, hd]

theorem literal_point {whole : Text} (h : ∀ c ∈ whole, isPatternDigit c = true) (rest : Text) :
    literal (whole ++ '.' :: rest) = whole ++ '.' :: rest.takeWhile isPatternDigit := by
  obtain ⟨htake, hdrop⟩ : (whole ++ '.' :: rest).takeWhile isPatternDigit = whole ∧
      (whole ++ '.' :: rest).dropWhile isPatternDigit = '.' :: rest :=
    takeWhile_append_of_head? h (by simp [isPatternDigit_point])
  simp [literal, htake, hdrop]

theorem IsNumeral.literal_eq (h : IsNumeral run) : literal run = run := by
  obtain ⟨whole, decimals, hwhole, hdecimals, -, ⟨rfl, rfl⟩ | rfl⟩ := isNumeral_iff.mp h
  · have htake : run.takeWhile isPatternDigit = run := List.takeWhile_eq_self_iff.mpr hwhole
    have hdrop : run.dropWhile isPatternDigit = [] := List.dropWhile_eq_nil_iff.mpr hwhole
    simp [literal, htake, hdrop]
  · rw [literal_point hwhole, List.takeWhile_eq_self_iff.mpr hdecimals]

/-- **The literal of a run is a numeral**: all of the run, or as much of it as is one. -/
theorem isNumeral_literal (hrun : ∀ c ∈ run, isNumeric c = true)
    (hbegins : beginsNumber run = true) : IsNumeral (literal run) := by
  have hsplit : run.takeWhile isPatternDigit ++ run.dropWhile isPatternDigit = run :=
    List.takeWhile_append_dropWhile
  have hwhole : ∀ c ∈ run.takeWhile isPatternDigit, isPatternDigit c = true :=
    List.all_eq_true.mp List.all_takeWhile
  unfold literal
  generalize run.takeWhile isPatternDigit = whole at *
  cases hrest : run.dropWhile isPatternDigit with
  | nil =>
    rw [hrest, List.append_nil] at hsplit
    refine isNumeral_iff.mpr ⟨whole, [], hwhole, by simp, ?_, .inl ⟨by simp, rfl⟩⟩
    intro hnil
    rw [← hsplit, (List.append_eq_nil_iff.mp hnil).1] at hbegins
    cases hbegins
  | cons p rest =>
    rw [hrest] at hsplit
    have hp : isPatternDigit p = false := by
      have := List.head?_dropWhile_not isPatternDigit run
      simpa [hrest] using this
    obtain rfl : p = '.' := by
      refine (isNumeric_iff.mp (hrun p ?_)).resolve_left (Bool.eq_false_iff.mp hp)
      rw [← hsplit]
      simp
    refine isNumeral_iff.mpr ⟨whole, rest.takeWhile isPatternDigit, hwhole,
      List.all_eq_true.mp List.all_takeWhile, ?_, .inr (by simp)⟩
    intro hnil
    obtain ⟨rfl, hdigits⟩ := List.append_eq_nil_iff.mp hnil
    rw [← hsplit] at hbegins
    -- The run begins with the point, so a digit has to stand behind it.
    cases rest with
    | nil => simp [beginsNumber, isPatternDigit_point] at hbegins
    | cons d rest =>
      simp [beginsNumber, isPatternDigit_point] at hbegins
      simp [hbegins] at hdigits

/-- **A run of digits and points is a numeral** exactly if it begins like a number and its literal is
all of it. -/
theorem isNumeral_iff_literal : IsNumeral run ↔
    run.all isNumeric = true ∧ beginsNumber run = true ∧ literal run = run := by
  rw [List.all_eq_true]
  constructor
  · exact fun h => ⟨h.isNumeric, h.beginsNumber_eq, h.literal_eq⟩
  · rintro ⟨hrun, hbegins, hliteral⟩
    exact hliteral ▸ isNumeral_literal hrun hbegins

theorem mem_of_mem_literal {c : Char} (h : c ∈ literal run) : c ∈ run := by
  have hrest := (List.dropWhile_sublist (l := run) isPatternDigit).subset
  unfold literal at h
  rcases List.mem_append.mp h with h | h
  · rcases List.mem_append.mp h with h | h
    · exact (List.takeWhile_sublist _).subset h
    · exact hrest (List.mem_of_mem_take h)
  · exact hrest (List.mem_of_mem_drop ((List.takeWhile_sublist _).subset h))

/-- **The numerals that can be read** are those that the number reader reads. -/
theorem isNumeral_and_isRead_iff :
    IsNumeral run ∧ IsRead run ↔ ∃ v, Numeral.read? run = some v := by
  constructor
  · rintro ⟨hnumeral, hread⟩
    rw [← hnumeral.literal_eq]
    exact hread hnumeral.beginsNumber_eq
  · rintro ⟨v, hv⟩
    have hnumeral := isNumeral_of_read? hv
    refine ⟨hnumeral, fun _ => ?_⟩
    rw [hnumeral.literal_eq]
    exact ⟨v, hv⟩

end

theorem mem_signs_iff (previous : Option Token) {c : Char} :
    c ∈ signs ↔ ∃ token, Token.symbol? previous c = some token := by
  unfold signs Token.symbol?
  split <;> simp_all

theorem lexeme_iff {run : Text} : Lexeme run ↔
    run ∈ vocabulary ∨
      (run.all isNumeric = true ∧ beginsNumber run = true ∧ literal run = run) ∨
      run.all isBlank = true ∨ run ∈ signs.map fun c => [c] := by
  rw [← isNumeral_iff_literal, List.all_eq_true, List.mem_map]
  constructor
  · rintro (h | h | h | h)
    · exact .inl h
    · exact .inr (.inl h)
    · exact .inr (.inr (.inl h))
    · exact .inr (.inr (.inr ⟨_, h, rfl⟩))
  · rintro (h | h | h | ⟨c, h, rfl⟩)
    · exact .name h
    · exact .numeral h
    · exact .blank h
    · exact .sign h

instance (run : Text) : Decidable (Lexeme run) :=
  decidable_of_iff' _ lexeme_iff

/-! ### Reading one run -/

/-- With tokens in front. -/
def Lexed.behind (tokens : List Token) (lexed : Lexed) : Lexed :=
  { lexed with tokens := tokens ++ lexed.tokens }

namespace Token

variable {previous : Option Token} {c : Char} {run rest : Text}

theorem lexAfter_blanks (h : ∀ c ∈ run, isBlank c = true) :
    lexAfter previous (run ++ rest) = lexAfter previous rest := by
  induction run with
  | nil => rfl
  | cons c run ih =>
    rw [List.cons_append, lexAfter, if_pos (h c List.mem_cons_self)]
    exact ih fun d hd => h d (List.mem_cons_of_mem c hd)

theorem lexAfter_unknown_word (hrun : ∀ c ∈ run, isLetter c = true) (hne : run ≠ [])
    (hrest : ∀ c ∈ rest.head?, isLetter c = false) (hnamed : named? run = none) :
    lexAfter previous (run ++ rest) = { fault := some (.unknownIdentifier run) } := by
  cases run with
  | nil => exact absurd rfl hne
  | cons c run =>
    have hc := hrun c List.mem_cons_self
    obtain ⟨htake, -⟩ := takeWhile_append_of_head?
      (fun x hx => hrun x (List.mem_cons_of_mem c hx)) hrest
    rw [List.cons_append, lexAfter, isBlank_eq_false (isMargin_of_isLetter hc), htake,
      if_neg Bool.false_ne_true, if_pos hc]
    simp only [hnamed]

/-- Whether a run begins like a number does not depend on the text behind it. -/
theorem beginsNumber_append (hne : run ≠ []) (hrest : ∀ c ∈ rest.head?, isNumeric c = false) :
    beginsNumber (run ++ rest) = beginsNumber run := by
  match run, hne with
  | [c], _ =>
    have hhead : rest.head?.any isPatternDigit = false := by
      cases rest with
      | nil => rfl
      | cons d rest =>
        exact Bool.eq_false_iff.mpr fun hd =>
          Bool.eq_false_iff.mp (hrest d rfl) (isNumeric_iff.mpr (.inl hd))
    show (isPatternDigit c || (c == '.' && rest.head?.any isPatternDigit)) =
      (isPatternDigit c || (c == '.' && false))
    rw [hhead]
  | c :: d :: run, _ => rfl

theorem lexAfter_no_number (hrun : ∀ c ∈ run, isNumeric c = true)
    (hrest : ∀ c ∈ rest.head?, isNumeric c = false) (hbegins : beginsNumber run = true)
    (hread : Numeral.read? run = none) :
    lexAfter previous (run ++ rest) = { fault := some (faultOfRun run) } := by
  cases run with
  | nil => cases hbegins
  | cons c run =>
    have hc := hrun c List.mem_cons_self
    have hbegins' := beginsNumber_append (List.cons_ne_nil c run) hrest
    rw [hbegins, List.cons_append] at hbegins'
    obtain ⟨htake, -⟩ := takeWhile_append_of_head?
      (fun x hx => hrun x (List.mem_cons_of_mem c hx)) hrest
    rw [List.cons_append, lexAfter, isBlank_eq_false (isMargin_of_isNumeric hc),
      isLetter_of_isNumeric hc, htake, if_neg Bool.false_ne_true, if_neg Bool.false_ne_true,
      if_pos hbegins']
    simp only [hread]

theorem lexAfter_point (hrun : ∀ c ∈ run, isNumeric c = true) (hne : run ≠ [])
    (hrest : ∀ c ∈ rest.head?, isNumeric c = false) (hbegins : beginsNumber run = false) :
    lexAfter previous (run ++ rest) = { fault := some (.unknownCharacter '.') } := by
  cases run with
  | nil => exact absurd rfl hne
  | cons c run =>
    have hc := hrun c List.mem_cons_self
    have hbegins' := beginsNumber_append (List.cons_ne_nil c run) hrest
    rw [hbegins, List.cons_append] at hbegins'
    have hdigit : isPatternDigit c = false := (Bool.or_eq_false_iff.mp hbegins).1
    obtain rfl : c = '.' := (isNumeric_iff.mp hc).resolve_left (Bool.eq_false_iff.mp hdigit)
    rw [List.cons_append, lexAfter, isBlank_eq_false isMargin_point, isLetter_point, hbegins',
      if_neg Bool.false_ne_true, if_neg Bool.false_ne_true, if_neg Bool.false_ne_true]
    rfl

theorem lexAfter_unknown_character (hc : CharClass.of c = .lone) (hsign : c ∉ signs) :
    lexAfter previous (c :: rest) = { fault := some (.unknownCharacter c) } := by
  have hletter : ¬ isLetter c = true := fun h => by
    rw [of_eq_letter_iff.mpr h] at hc
    cases hc
  have hnumeric : ¬ isNumeric c = true := fun h => by
    rw [of_eq_numeric_iff.mpr h] at hc
    cases hc
  have hblank : ¬ isBlank c = true := fun h => by
    rw [of_eq_blank_iff.mpr h] at hc
    cases hc
  have hbegins : ¬ beginsNumber (c :: rest) = true := by
    rw [isNumeric_iff, not_or] at hnumeric
    simp [beginsNumber, hnumeric]
  have hsymbol : symbol? previous c = none := by
    rw [mem_signs_iff previous, not_exists] at hsign
    exact Option.eq_none_iff_forall_ne_some.mpr hsign
  rw [lexAfter, if_neg hblank, if_neg hletter, if_neg hbegins, hsymbol]

/-- **Reading a readable run** yields its token, if it has one, whatever stands behind it. -/
theorem lexAfter_of_readable (h : Readable run) (hne : run ≠ []) (previous : Option Token) :
    ∃ tokens last, ∀ rest, Apart run rest →
      lexAfter previous (run ++ rest) = (lexAfter last rest).behind tokens := by
  obtain ⟨h, hread⟩ := h
  cases h with
  | name h =>
    obtain ⟨token, hnamed⟩ := mem_vocabulary_iff.mp h
    have hrun := isLetter_of_mem_vocabulary h
    refine ⟨[token], some token, fun rest hrest => ?_⟩
    have hhead := hrest.of_ne hne (fun c hc => of_eq_letter_iff.mpr (hrun c hc)) (by decide)
    exact lexAfter_word hrun hne
      (fun c hc => Bool.eq_false_iff.mpr fun hl => hhead c hc (of_eq_letter_iff.mpr hl)) hnamed
  | numeral h =>
    obtain ⟨v, hread⟩ := isNumeral_and_isRead_iff.mp ⟨h, hread⟩
    have hrun := Numeral.isNumeric_of_read? hread
    refine ⟨[number v], some (number v), fun rest hrest => ?_⟩
    have hhead := hrest.of_ne hne (fun c hc => of_eq_numeric_iff.mpr (hrun c hc)) (by decide)
    exact lexAfter_numeral hread
      (fun c hc => Bool.eq_false_iff.mpr fun hn => hhead c hc (of_eq_numeric_iff.mpr hn))
  | blank h =>
    exact ⟨[], previous, fun rest _ => lexAfter_blanks h⟩
  | @sign c h =>
    obtain ⟨token, hsymbol⟩ := (mem_signs_iff previous).mp h
    have hc : isSign c = true := List.all_eq_true.mp
      (show (signs.all isSign) = true by decide +kernel) c h
    exact ⟨[token], some token, fun rest _ => lexAfter_symbol hc hsymbol⟩

theorem offends_faultOfRun (hrun : ∀ c ∈ run, isNumeric c = true)
    (hbegins : beginsNumber run = true) : Offends run (faultOfRun run) := by
  unfold faultOfRun
  cases hread : Numeral.read? (literal run) with
  | none =>
    refine .literal hrun hbegins fun h => ?_
    obtain ⟨v, hv⟩ := h hbegins
    rw [hread] at hv
    cases hv
  | some v => exact .number hrun hbegins fun _ => ⟨v, hread⟩

theorem isRead_of_beginsNumber (h : beginsNumber run = false) : IsRead run := by
  intro hbegins
  rw [h] at hbegins
  cases hbegins

theorem beginsNumber_of_of_ne_numeric {c : Char} {tail : Text} (h : CharClass.of c ≠ .numeric) :
    beginsNumber (c :: tail) = false := by
  have hc : isNumeric c = false :=
    Bool.eq_false_iff.mpr fun hc => h (of_eq_numeric_iff.mpr hc)
  rw [isNumeric, Bool.or_eq_false_iff] at hc
  simp [beginsNumber, hc]

/-- **Reading stops at a run that is not readable**, with its fault. -/
theorem lexAfter_of_not_readable (h : ¬ Readable run) (hne : run ≠ [])
    (hchain : run.IsChain fun c d => joins c d = true) :
    ∃ fault, Offends run fault ∧ ∀ previous rest, Apart run rest →
      lexAfter previous (run ++ rest) = { fault := some fault } := by
  obtain ⟨c, tail, rfl⟩ := List.exists_cons_of_ne_nil hne
  obtain ⟨hclass, hlone⟩ := of_eq_of_isChain hchain
  have hlexeme (hc : CharClass.of c ≠ .numeric) : ¬ Lexeme (c :: tail) := fun hrun =>
    h ⟨hrun, isRead_of_beginsNumber (beginsNumber_of_of_ne_numeric hc)⟩
  cases hc : CharClass.of c with
  | letter =>
    rw [hc] at hclass
    have hrun : ∀ d ∈ c :: tail, isLetter d = true := fun d hd =>
      of_eq_letter_iff.mp (hclass d hd)
    have hnamed : named? (c :: tail) = none := by
      refine Option.eq_none_iff_forall_ne_some.mpr fun token htoken => hlexeme (by simp [hc]) ?_
      exact .name (mem_vocabulary_iff.mpr ⟨token, htoken⟩)
    refine ⟨_, .word hrun, fun previous rest hrest => lexAfter_unknown_word hrun hne ?_ hnamed⟩
    have hhead := hrest.of_ne hne hclass (by decide)
    exact fun d hd => Bool.eq_false_iff.mpr fun hl => hhead d hd (of_eq_letter_iff.mpr hl)
  | numeric =>
    rw [hc] at hclass
    have hrun : ∀ d ∈ c :: tail, isNumeric d = true := fun d hd =>
      of_eq_numeric_iff.mp (hclass d hd)
    have hhead : ∀ rest, Apart (c :: tail) rest → ∀ d ∈ rest.head?, isNumeric d = false :=
      fun rest hrest d hd => Bool.eq_false_iff.mpr fun hn =>
        hrest.of_ne hne hclass (by decide) d hd (of_eq_numeric_iff.mpr hn)
    have hread : Numeral.read? (c :: tail) = none := by
      refine Option.eq_none_iff_forall_ne_some.mpr fun v hv => h ?_
      obtain ⟨hnumeral, hread⟩ := isNumeral_and_isRead_iff.mpr ⟨v, hv⟩
      exact ⟨.numeral hnumeral, hread⟩
    cases hbegins : beginsNumber (c :: tail) with
    | true =>
      exact ⟨_, offends_faultOfRun hrun hbegins, fun previous rest hrest =>
        lexAfter_no_number hrun (hhead rest hrest) hbegins hread⟩
    | false =>
      exact ⟨_, .point hrun hbegins, fun previous rest hrest =>
        lexAfter_point hrun hne (hhead rest hrest) hbegins⟩
  | blank =>
    rw [hc] at hclass
    exact absurd (.blank fun d hd => of_eq_blank_iff.mp (hclass d hd)) (hlexeme (by simp [hc]))
  | lone =>
    obtain rfl := hlone hc
    have hsign : c ∉ signs := fun hmem => hlexeme (by simp [hc]) (.sign hmem)
    exact ⟨_, .character hc, fun previous rest _ => lexAfter_unknown_character hc hsign⟩

end Token

/-! ### Reading all runs -/

/-- The runs that a text is cut into: not empty, each in one piece, each apart from the next. -/
structure Cut (pieces : List Text) : Prop where
  ne_nil : [] ∉ pieces
  chain : ∀ run ∈ pieces, run.IsChain fun c d => joins c d = true
  apart : pieces.IsChain fun run next => ∃ hr hn, joins (run.getLast hr) (next.head hn) = false

theorem cut_runs (text : Text) : Cut (runs text) where
  ne_nil := List.nil_notMem_splitBy joins text
  chain := fun _ h => List.isChain_of_mem_splitBy h
  apart := List.isChain_getLast_head_splitBy joins text

theorem Cut.ne_nil_of_mem {pieces : List Text} (h : Cut pieces) {run : Text} (hrun : run ∈ pieces) :
    run ≠ [] := by
  rintro rfl
  exact h.ne_nil hrun

theorem Cut.left {pieces pieces' : List Text} (h : Cut (pieces ++ pieces')) : Cut pieces where
  ne_nil := fun hmem => h.ne_nil (List.mem_append_left _ hmem)
  chain := fun run hrun => h.chain run (List.mem_append_left _ hrun)
  apart := h.apart.left_of_append

theorem Cut.right {pieces pieces' : List Text} (h : Cut (pieces ++ pieces')) : Cut pieces' where
  ne_nil := fun hmem => h.ne_nil (List.mem_append_right _ hmem)
  chain := fun run hrun => h.chain run (List.mem_append_right _ hrun)
  apart := h.apart.right_of_append

theorem Cut.tail {run : Text} {pieces : List Text} (h : Cut (run :: pieces)) : Cut pieces :=
  Cut.right (show Cut ([run] ++ pieces) from h)

theorem Cut.head_ne_nil {run : Text} {pieces : List Text} (h : Cut (run :: pieces)) : run ≠ [] :=
  h.ne_nil_of_mem List.mem_cons_self

theorem Cut.apart_head {run : Text} {pieces : List Text} (h : Cut (run :: pieces)) :
    Apart run pieces.flatten := by
  cases pieces with
  | nil => exact apart_nil
  | cons next pieces =>
    obtain ⟨hr, hn, hjoins⟩ := (List.isChain_cons_cons.mp h.apart).1
    intro c hc d hd
    rw [List.getLast?_eq_some_getLast hr] at hc
    rw [List.flatten_cons, List.head?_append_of_ne_nil _ hn, List.head?_eq_some_head hn] at hd
    rw [← Option.some.inj hc, ← Option.some.inj hd]
    exact hjoins

namespace Token

/-- **Reading readable runs** yields the same tokens whatever runs stand behind them. -/
theorem lexAfter_flatten {pieces : List Text} (h : ∀ run ∈ pieces, Readable run)
    (previous : Option Token) :
    ∃ tokens last, ∀ after, Cut (pieces ++ after) →
      lexAfter previous (pieces ++ after).flatten =
        (lexAfter last after.flatten).behind tokens := by
  induction pieces generalizing previous with
  | nil => exact ⟨[], previous, fun after _ => rfl⟩
  | cons run pieces ih =>
    by_cases hne : run = []
    · exact ⟨[], previous, fun after hcut => absurd hne hcut.head_ne_nil⟩
    obtain ⟨first, middle, hfirst⟩ := lexAfter_of_readable (h run List.mem_cons_self) hne previous
    obtain ⟨others, last, hothers⟩ := ih (fun r hr => h r (List.mem_cons_of_mem _ hr)) middle
    refine ⟨first ++ others, last, fun after hcut => ?_⟩
    have happart : Apart run (pieces ++ after).flatten := hcut.apart_head
    rw [List.cons_append, List.flatten_cons, hfirst _ happart, hothers _ hcut.tail]
    simp only [Lexed.behind, List.append_assoc]

/-- Readable runs that nothing stands behind are read to their end. -/
theorem lex_flatten {pieces : List Text} (hcut : Cut pieces) (h : ∀ run ∈ pieces, Readable run) :
    ∃ tokens last, lex pieces.flatten = { tokens := tokens } ∧
      ∀ after, Cut (pieces ++ after) →
        lex (pieces ++ after).flatten = (lexAfter last after.flatten).behind tokens := by
  obtain ⟨tokens, last, htokens⟩ := lexAfter_flatten h none
  have hend := htokens [] (by rwa [List.append_nil])
  rw [List.append_nil, List.flatten_nil, lexAfter] at hend
  refine ⟨tokens, last, ?_, htokens⟩
  unfold lex
  rw [hend]
  simp only [Lexed.behind, List.append_nil]

end Token

open Token

variable {text : Text}

theorem Token.tokenize_congr {text' : Text} (h : lex text = lex text') :
    tokenize text = tokenize text' := by
  unfold tokenize
  rw [h]

theorem flatten_runs (text : Text) : (runs text).flatten = text :=
  List.flatten_splitBy joins text

theorem exists_tokenize_of_readable (h : ∀ run ∈ runs text, Readable run) :
    ∃ tokens, tokenize text = .ok tokens := by
  obtain ⟨tokens, -, hlex, -⟩ := lex_flatten (cut_runs text) h
  rw [flatten_runs] at hlex
  exact ⟨tokens, by simp only [tokenize, hlex]⟩

/-- **Reading stops at a fault**: that of the first run of a text that is none of a kind, with the
tokens of the text before this run. -/
def StopsAtFirst (kind : Text → Prop) (text : Text) (fault : Fault) : Prop :=
  ∃ before run after, runs text = before ++ run :: after ∧ (∀ r ∈ before, kind r) ∧ ¬ kind run ∧
    Offends run fault ∧ tokenize text = .error fault ∧
    tokenize before.flatten = .ok (lex text).tokens

/-- The runs before the first that is not readable are read as if nothing stood behind them. -/
theorem tokenize_of_not_readable {before after : List Text} {run : Text}
    (heq : runs text = before ++ run :: after) (hbefore : ∀ r ∈ before, Readable r)
    (hrun : ¬ Readable run) :
    ∃ fault, Offends run fault ∧ tokenize text = .error fault ∧
      tokenize before.flatten = .ok (lex text).tokens := by
  have hcut : Cut (before ++ run :: after) := heq ▸ cut_runs text
  have htext : (before ++ run :: after).flatten = text := heq ▸ flatten_runs text
  obtain ⟨tokens, last, hbeforeLex, htokens⟩ := lex_flatten hcut.left hbefore
  obtain ⟨fault, hoffends, hfault⟩ := lexAfter_of_not_readable hrun hcut.right.head_ne_nil
    (hcut.right.chain run List.mem_cons_self)
  have hlex : lex text = { tokens := tokens, fault := some fault } := by
    have hall := htokens _ hcut
    rw [htext, List.flatten_cons, hfault _ _ hcut.right.apart_head] at hall
    rw [hall]
    simp only [Lexed.behind, List.append_nil]
  refine ⟨fault, hoffends, ?_, ?_⟩
  · simp only [tokenize, hlex]
  · simp only [tokenize, hlex, hbeforeLex]

theorem exists_first_not {p : Text → Prop} {pieces : List Text} (h : ∃ run ∈ pieces, ¬ p run) :
    ∃ before run after, pieces = before ++ run :: after ∧ (∀ r ∈ before, p r) ∧ ¬ p run := by
  classical
  obtain ⟨run, hmem, hrun⟩ := h
  obtain ⟨first, hfind⟩ := Option.isSome_iff_exists.mp
    (List.find?_isSome (p := fun r => decide (¬ p r)).mpr ⟨run, hmem, decide_eq_true hrun⟩)
  obtain ⟨hfirst, before, after, heq, hbefore⟩ := List.find?_eq_some_iff_append.mp hfind
  refine ⟨before, first, after, heq, fun r hr => ?_, of_decide_eq_true hfirst⟩
  simpa using hbefore r hr

theorem exists_stopsAtFirst (h : ∃ run ∈ runs text, ¬ Readable run) :
    ∃ fault, StopsAtFirst Readable text fault := by
  obtain ⟨before, run, after, heq, hbefore, hrun⟩ := exists_first_not h
  obtain ⟨fault, hoffends, herror, htokens⟩ := tokenize_of_not_readable heq hbefore hrun
  exact ⟨fault, before, run, after, heq, hbefore, hrun, hoffends, herror, htokens⟩

theorem readable_of_tokenize {tokens : List Token} (h : tokenize text = .ok tokens) :
    ∀ run ∈ runs text, Readable run := by
  by_contra hnot
  push Not at hnot
  obtain ⟨fault, -, -, -, -, -, -, -, herror, -⟩ := exists_stopsAtFirst hnot
  rw [h] at herror
  cases herror

theorem exists_not_readable_of_tokenize {fault : Fault} (h : tokenize text = .error fault) :
    ∃ run ∈ runs text, ¬ Readable run := by
  by_contra hall
  push Not at hall
  obtain ⟨tokens, htokens⟩ := exists_tokenize_of_readable hall
  rw [h] at htokens
  cases htokens

theorem stopsAtFirst_of_tokenize {fault : Fault} (h : tokenize text = .error fault) :
    StopsAtFirst Readable text fault := by
  obtain ⟨fault', hstops⟩ := exists_stopsAtFirst (exists_not_readable_of_tokenize h)
  obtain ⟨-, -, -, -, -, -, -, herror, -⟩ := id hstops
  rw [h] at herror
  cases herror
  exact hstops

/-! ### Texts that stay apart -/

/-- **Two texts that stay apart are cut into the runs of each.** -/
theorem runs_append {first rest : Text} (h : Apart first rest) :
    runs (first ++ rest) = runs first ++ runs rest :=
  List.splitBy_append h

theorem lex_append_of_tokenize_ok {first rest : Text} {tokens : List Token}
    (h : Apart first rest) (htokens : tokenize first = .ok tokens) :
    ∃ last, lex (first ++ rest) = (lexAfter last rest).behind tokens := by
  obtain ⟨tokens', last, hlex, hbehind⟩ :=
    lex_flatten (cut_runs first) (readable_of_tokenize htokens)
  rw [flatten_runs] at hlex
  obtain rfl : tokens' = tokens := by
    simp only [tokenize, hlex] at htokens
    exact Except.ok.inj htokens
  have hall := hbehind (runs rest) (runs_append h ▸ cut_runs (first ++ rest))
  rw [List.flatten_append, flatten_runs, flatten_runs] at hall
  exact ⟨last, hall⟩

/-- **A fault is reported whatever stands behind it.** -/
theorem lex_append_of_tokenize_error {first rest : Text} {fault : Fault} (h : Apart first rest)
    (herror : tokenize first = .error fault) : lex (first ++ rest) = lex first := by
  obtain ⟨before, run, after, heq, hbefore, hrun⟩ :=
    exists_first_not (exists_not_readable_of_tokenize herror)
  have hcut : Cut (before ++ run :: after) := heq ▸ cut_runs first
  obtain ⟨tokens, last, -, hbehind⟩ := lex_flatten hcut.left hbefore
  obtain ⟨fault', -, hfault⟩ := lexAfter_of_not_readable hrun hcut.right.head_ne_nil
    (hcut.right.chain run List.mem_cons_self)
  -- The run stops reading in both texts, with the same tokens before it.
  have hstops {others : List Text} (hothers : Cut (before ++ run :: others)) :
      lex (before ++ run :: others).flatten =
        Lexed.behind tokens { fault := some fault' } := by
    rw [hbehind _ hothers, List.flatten_cons, hfault _ _ hothers.right.apart_head]
  have hfirst : (before ++ run :: after).flatten = first := heq ▸ flatten_runs first
  have hruns : runs (first ++ rest) = before ++ run :: (after ++ runs rest) := by
    rw [runs_append h, heq, List.append_assoc, List.cons_append]
  have hwhole : (before ++ run :: (after ++ runs rest)).flatten = first ++ rest :=
    hruns ▸ flatten_runs (first ++ rest)
  rw [← hwhole, hstops (hruns ▸ cut_runs _), ← hstops hcut, hfirst]

/-! ### Literals that are read -/

/-- Where the number reader reads all literals, the readable runs are the lexemes. -/
theorem LiteralsRead.readable_iff (h : LiteralsRead text) :
    ∀ run ∈ runs text, Readable run ↔ Lexeme run :=
  fun run hrun => and_iff_left (h run hrun)

/-- **Known digits are enough** for the number reader to read all literals of a text. -/
theorem DigitsRead.literalsRead (h : DigitsRead text) : LiteralsRead text := by
  intro run hmem hbegins
  obtain ⟨c, tail, rfl⟩ := List.exists_cons_of_ne_nil ((cut_runs text).ne_nil_of_mem hmem)
  have hc : CharClass.of c = .numeric := by
    by_contra hne
    rw [beginsNumber_of_of_ne_numeric hne] at hbegins
    cases hbegins
  have hrun : ∀ d ∈ c :: tail, isNumeric d = true := fun d hd =>
    of_eq_numeric_iff.mp (((of_eq_of_isChain ((cut_runs text).chain _ hmem)).1 d hd).trans hc)
  refine (isNumeral_literal hrun hbegins).exists_read? fun d hd => h d ?_
  rw [← flatten_runs text]
  exact List.mem_flatten_of_mem hmem (mem_of_mem_literal hd)

/-- **Where all literals are read**, reading stops at the first run that is no lexeme. -/
theorem StopsAtFirst.of_literalsRead {fault : Fault} (h : StopsAtFirst Readable text fault)
    (hread : LiteralsRead text) :
    fault.kind = .unknownToken ∧ StopsAtFirst Lexeme text fault := by
  obtain ⟨before, run, after, heq, hbefore, hrun, hoffends, herror, htokens⟩ := h
  have hmem : run ∈ runs text := by simp [heq]
  refine ⟨hoffends.kind_eq (hread run hmem), before, run, after, heq,
    fun r hr => (hbefore r hr).1, ?_, hoffends, herror, htokens⟩
  rwa [← hread.readable_iff run hmem]

-- A digit of a later version of the standard begins a literal that cannot be read.
example : tokenize [Char.ofNat 0x1E4F1] = .error (.unreadableNumber [Char.ofNat 0x1E4F1]) := by
  decide +kernel

end DeskCalculator
