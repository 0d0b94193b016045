import DeskCalculator.Proofs.Keypad.Continued
import DeskCalculator.Proofs.WordsKept

/-!
# Minuses of infix writings

Both minuses are written by one sign. Behind a token the reader takes it for the sign of an operand
where no operand can end, and it takes a percent sign for such a token, as any other operator. So of
an infix writing every minus is read back as what it is, except those between two operands that stand
directly behind a percent sign (`MinusBehindPercent`): these are read as signs of operands
(`reread`, `tokenize_of_writes`). The writing is then lost, and nothing that is read so has a value,
since the operand of the sign is one too many (`minuses_read_in_role`).

The places of an infix writing tell for each token whether an operand ends before it
(`Place.Tells`), and the induction goes over the places.
-/

namespace DeskCalculator

open Token Expression

variable {token : Token} {before tokens : List Token} {word text : Text} {previous : Option Token}

/-- **A minus between two operands** directly behind a percent sign. -/
def MinusBehindPercent (tokens : List Token) : Prop :=
  [.operator .percent, .operator .subtract] <:+: tokens

instance (tokens : List Token) : Decidable (MinusBehindPercent tokens) :=
  inferInstanceAs (Decidable (_ <:+: tokens))

/-! ### Tokens as they are read -/

namespace Token

/-- A token as it is read behind the previous one. -/
def readBehind (previous : Option Token) (token : Token) : Token :=
  if previous = some (operator .percent) ∧ token = operator .subtract then operator .negate
  else token

/-- **Tokens as they are read**: each minus directly behind a percent sign is that of an operand. -/
def reread (previous : Option Token) : List Token → List Token
  | [] => []
  | token :: tokens =>
    readBehind previous token :: reread (some (readBehind previous token)) tokens

theorem readBehind_eq_self_iff : readBehind previous token = token ↔
    ¬ (previous = some (operator .percent) ∧ token = operator .subtract) := by
  unfold readBehind
  split
  · next h => simp [h]
  · next h => simp [h]

theorem isNumber_readBehind : (readBehind previous token).isNumber = token.isNumber := by
  unfold readBehind
  split
  · next h => rw [h.2]; rfl
  · rfl

theorem isName_readBehind : (readBehind previous token).isName = token.isName := by
  unfold readBehind
  split
  · next h => rw [h.2]; rfl
  · rfl

theorem spells_readBehind (h : Spells token word) : Spells (readBehind previous token) word := by
  unfold readBehind
  split
  · next hcond =>
    obtain ⟨-, rfl⟩ := hcond
    cases h
    exact .operator .negate
  · exact h

theorem spaced_reread (h : Spaced tokens text) (previous : Option Token) :
    Spaced (reread previous tokens) text := by
  induction h generalizing previous with
  | nil hgap => exact .nil hgap
  | @cons token tokens gap word rest hgap hword hrest hapart ih =>
    refine .cons hgap (spells_readBehind hword) (ih _) fun next hnext hruns => ?_
    cases tokens with
    | nil => cases hnext
    | cons other tokens =>
      obtain rfl := Option.some.inj hnext
      refine hapart other rfl ?_
      unfold RunsInto at hruns ⊢
      rwa [isNumber_readBehind, isNumber_readBehind, isName_readBehind, isName_readBehind] at hruns

/-- **Tokens are read as they are** if no minus between operands is behind a percent sign. -/
theorem reread_eq_self_iff :
    reread previous tokens = tokens ↔ ¬ MinusBehindPercent (previous.toList ++ tokens) := by
  unfold MinusBehindPercent
  induction tokens generalizing previous with
  | nil =>
    have hlength : ¬ [operator .percent, operator .subtract] <:+: previous.toList ++ [] := by
      intro h
      have := h.length_le
      cases previous <;> simp at this
    exact iff_of_true rfl hlength
  | cons token tokens ih =>
    have hhead : reread previous (token :: tokens) = token :: tokens ↔
        readBehind previous token = token ∧ reread (some token) tokens = tokens := by
      rw [reread, List.cons.injEq]
      exact and_congr_right fun h => by rw [h]
    rw [hhead, readBehind_eq_self_iff, ih]
    cases previous with
    | none => simp
    | some other =>
      have hsplit : [operator .percent, operator .subtract] <:+: other :: token :: tokens ↔
          (other = operator .percent ∧ token = operator .subtract) ∨
            [operator .percent, operator .subtract] <:+: token :: tokens := by
        rw [List.infix_cons_iff, List.cons_prefix_cons, List.cons_prefix_cons]
        simp only [List.nil_prefix, and_true, eq_comm]
      simp only [Option.toList_some, List.singleton_append, Option.some.injEq]
      rw [hsplit, not_or]

end Token

/-! ### What places tell -/

namespace Place

variable {place place' : Place}

theorem allowsSign_of_step (h : place.step token = some place') (hphase : place'.phase = .operand) :
    allowsSign (some token) = true := by
  cases steps_of_step h with
  | number => cases hphase
  | constant => cases hphase
  | function => cases hphase
  | percent => cases hphase
  | close => cases hphase
  | negate | group | arguments | binary | comma => rfl

/-- Where an operand has ended, the reader has none begin but behind a percent sign. -/
theorem eq_percent_of_step (h : place.step token = some place') (hphase : place'.phase = .operator)
    (hsign : allowsSign (some token) = true) : token = .operator .percent := by
  cases steps_of_step h with
  | number => cases hsign
  | constant => cases hsign
  | close => cases hsign
  | percent => rfl
  | negate | function | group | arguments | binary | comma => cases hphase

theorem phase_of_step_negate (h : place.step (.operator .negate) = some place') :
    place.phase = .operand := by
  obtain ⟨phase, commas⟩ := place
  cases phase with
  | operand => rfl
  | arguments name => cases h
  | operator => cases h

theorem phase_of_step_subtract (h : place.step (.operator .subtract) = some place') :
    place.phase = .operator ∧ place'.phase = .operand := by
  obtain ⟨phase, commas⟩ := place
  cases phase with
  | operand => cases h
  | arguments name => cases h
  | operator =>
    cases h
    exact ⟨rfl, rfl⟩

/-- **What a place tells of the tokens before it**: an operand begins, or it ends. It may end with a
percent sign, behind which the reader has an operand begin. -/
structure Tells (place : Place) (before : List Token) : Prop where
  begins : place.phase = .operand → BeginsOperand before
  ends : place.phase = .operator → BeginsOperand before →
    before.getLast? = some (.operator .percent)

theorem tells_nil : Tells {} [] where
  begins := fun _ => allowsSign_getLast?.mp rfl
  ends := nofun

theorem Tells.stands (h : place.Tells before) (hstep : place.step token = some place') :
    StandsBehind before (readBehind before.getLast? token) := by
  unfold readBehind
  split
  · next hcond =>
    refine ⟨fun _ => allowsSign_getLast?.mp ?_, nofun⟩
    rw [hcond.1]
    rfl
  · next hcond =>
    refine ⟨?_, ?_⟩
    · rintro rfl
      exact h.begins (phase_of_step_negate hstep)
    · rintro rfl hbegins
      exact hcond ⟨h.ends (phase_of_step_subtract hstep).1 hbegins, rfl⟩

/-- The place behind a token in place tells of the token as it is read. -/
theorem tells_of_step (hstep : place.step token = some place') :
    place'.Tells (before ++ [readBehind previous token]) := by
  have hsign : BeginsOperand (before ++ [readBehind previous token]) ↔
      allowsSign (some (readBehind previous token)) = true := by
    rw [← allowsSign_getLast?, List.getLast?_concat]
  unfold readBehind at hsign ⊢
  split at hsign
  · next hcond =>
    rw [if_pos hcond]
    rw [hcond.2] at hstep
    refine ⟨fun _ => hsign.mpr rfl, fun hphase => ?_⟩
    rw [(phase_of_step_subtract hstep).2] at hphase
    cases hphase
  · next hcond =>
    rw [if_neg hcond]
    refine ⟨fun hphase => hsign.mpr (allowsSign_of_step hstep hphase), fun hphase hbegins => ?_⟩
    rw [List.getLast?_concat, eq_percent_of_step hstep hphase (hsign.mp hbegins)]

theorem Tells.walk (h : place.Tells before) (hwalk : place.walk tokens = some place') :
    SignsInPlace before (reread before.getLast? tokens) := by
  induction tokens generalizing place before with
  | nil => exact signsInPlace_nil
  | cons token tokens ih =>
    obtain ⟨middle, hstep, hrest⟩ := Option.bind_eq_some_iff.mp hwalk
    have htells : middle.Tells (before ++ [readBehind before.getLast? token]) :=
      tells_of_step hstep
    have hlater := ih htells hrest
    rw [List.getLast?_concat] at hlater
    exact signsInPlace_cons.mpr ⟨h.stands hstep, hlater⟩

end Place

/-! ### Reading writings -/

theorem Place.not_runsInto_of_step {place middle place' : Place} {next : Token}
    (h : place.step token = some middle) (h' : middle.step next = some place') :
    ¬ token.RunsInto next := by
  unfold RunsInto
  cases steps_of_step h with
  | number | constant | function => cases steps_of_step h' <;> simp [isNumber, isName]
  | negate | group | arguments | percent | binary | comma | close => simp [isNumber, isName]

/-- **An infix writing needs no blanks.** -/
theorem spaced_of_walk {place place' : Place} (hwalk : place.walk tokens = some place')
    (h : Spelled tokens text) : Spaced tokens text := by
  induction h generalizing place with
  | nil => exact .nil fun _ hc => absurd hc List.not_mem_nil
  | @cons token tokens word rest hword hrest ih =>
    obtain ⟨middle, hstep, hlater⟩ := Option.bind_eq_some_iff.mp hwalk
    refine .cons_word hword (ih hlater) fun next hnext => ?_
    cases tokens with
    | nil => cases hnext
    | cons other tokens =>
      obtain rfl := Option.some.inj hnext
      obtain ⟨last, hstep', -⟩ := Option.bind_eq_some_iff.mp hlater
      exact Place.not_runsInto_of_step hstep hstep'

/-- **A writing is read back**, but for the minuses behind percent signs. -/
theorem tokenize_of_writes {level : Nat} {e : Expression} (hwrites : e.Writes level tokens)
    (hspaced : Spaced tokens text) : tokenize text = .ok (reread none tokens) :=
  tokenize_eq_ok_iff.mpr (lexAfter_spaced (spaced_reread hspaced none) []
    (Place.tells_nil.walk (walk_of_writes hwrites [])))

theorem tokenize_of_writes_eq_ok_iff {level : Nat} {e : Expression}
    (hwrites : e.Writes level tokens) (hspaced : Spaced tokens text) :
    tokenize text = .ok tokens ↔ ¬ MinusBehindPercent tokens := by
  rw [tokenize_of_writes hwrites hspaced, Except.ok.injEq, reread_eq_self_iff]
  rfl

theorem trim_ne_nil_of_spaced (h : Spaced tokens text) (hne : tokens ≠ []) : trim text ≠ [] := by
  cases h with
  | nil => exact absurd rfl hne
  | @cons token tokens gap word rest hgap hword hrest hapart =>
    obtain ⟨c, word', rfl⟩ := List.exists_cons_of_ne_nil (ne_nil_of_spells hword)
    have hmem : c ∈ gap ++ (c :: word' ++ rest) := by simp
    exact trim_ne_nil_of_mem hmem (isMargin_of_spells hword c List.mem_cons_self)

/-! ### Values -/

theorem gain_le_gain_readBehind (previous : Option Token) (token : Token) :
    token.gain ≤ (readBehind previous token).gain ∧
    ((readBehind previous token).gain = token.gain → readBehind previous token = token) := by
  unfold readBehind
  split
  · next hcond =>
    rw [hcond.2]
    exact ⟨by decide, fun h => absurd h (by decide)⟩
  · exact ⟨le_rfl, fun _ => rfl⟩

/-- **The sign of an operand leaves one value more** than the minus between two. -/
theorem gains_le_gains_reread (previous : Option Token) (tokens : List Token) :
    gains tokens ≤ gains (reread previous tokens) ∧
      (gains (reread previous tokens) = gains tokens → reread previous tokens = tokens) := by
  induction tokens generalizing previous with
  | nil => exact ⟨le_rfl, fun _ => rfl⟩
  | cons token tokens ih =>
    have hcons (first : Token) (others : List Token) :
        gains (first :: others) = first.gain + gains others := List.sum_cons
    obtain ⟨hle, heq⟩ := ih (some (readBehind previous token))
    obtain ⟨hle', heq'⟩ := gain_le_gain_readBehind previous token
    rw [reread, hcons, hcons]
    refine ⟨by omega, fun h => ?_⟩
    rw [heq (by omega), heq' (by omega)]

theorem gains_of_writes {level : Nat} {e : Expression} (h : e.Writes level tokens) :
    gains tokens = 1 := by
  rw [← gains_of_ofTokens (ReversePolish.ofTokens_of_writes h), gains_postOrder]

/-- **Minuses of infix writings.** A writing is read back exactly if no minus between two operands
stands directly behind a percent sign, and then its text has the value of the expression. Otherwise
each such minus is read as the sign of an operand, and the text has no value. -/
theorem minuses_read_in_role {e : Expression} (hwrites : e.Writes 0 tokens)
    (hspaced : Spaced tokens text) :
    (tokenize text = .ok tokens ↔ ¬ MinusBehindPercent tokens) ∧
    (¬ MinusBehindPercent tokens → evaluate text = .of e.value) ∧
    (MinusBehindPercent tokens → tokenize text = .ok (reread none tokens) ∧
      ∀ v shown, evaluate text ≠ .success v shown) := by
  have hread := tokenize_of_writes_eq_ok_iff hwrites hspaced
  refine ⟨hread, fun hminus => ?_, fun hminus => ⟨tokenize_of_writes hwrites hspaced, ?_⟩⟩
  · exact evaluate_of_writes (trim_ne_nil_of_spaced hspaced (ne_nil_of_writes hwrites))
      (hread.mpr hminus) hwrites
  · intro v shown hvalue
    obtain ⟨read, ⟨-, htokens⟩, hone⟩ := gains_of_evaluate hvalue
    obtain rfl : reread none tokens = read :=
      Except.ok.inj ((tokenize_of_writes hwrites hspaced).symm.trans htokens)
    -- The writing leaves one value, and what is read leaves more.
    have hsame := (gains_le_gains_reread none tokens).2 (hone.trans (gains_of_writes hwrites).symm)
    exact reread_eq_self_iff.mp hsame hminus

/-- The expression of `7-(5%)--pi`. -/
def sevenLessPercentage : Expression :=
  .binary .subtract (.binary .subtract (.number 7) (.percent (.number 5)))
    (.negate (.constant .pi))

/-- The tokens of `7-(5%)--pi`. -/
def sevenLessPercentageTokens : List Token :=
  [.number 7, .operator .subtract, .leftParen, .number 5, .operator .percent, .rightParen,
    .operator .subtract, .operator .negate, .constant Constant.pi.name]

/-- Behind the parenthesis of a percentage a minus is read as what it is. -/
theorem minuses_read_in_role_parenthesised :
    (sevenLessPercentage.Writes 0 sevenLessPercentageTokens ∧
      Spaced sevenLessPercentageTokens "7-(5%)--pi".toList ∧
      ¬ MinusBehindPercent sevenLessPercentageTokens) ∧
    tokenize "7-(5%)--pi".toList = .ok sevenLessPercentageTokens ∧
    evaluate "7-(5%)--pi".toList = .of sevenLessPercentage.value := by
  have hwrites : sevenLessPercentage.Writes 0 sevenLessPercentageTokens :=
    .binary (Nat.zero_le _)
      (.binary le_rfl (.number 7) (.parenthesised (.percent (Nat.zero_le _) (.number 5))))
      (.negate (by decide) (.constant .pi))
  have hseven : Spells (.number 7) ['7'] := .number (by decide +kernel)
  have hfive : Spells (.number 5) ['5'] := .number (by decide +kernel)
  have hspelled : Spelled sevenLessPercentageTokens "7-(5%)--pi".toList :=
    .cons hseven (.cons (.operator .subtract) (.cons .leftParen (.cons hfive
      (.cons (.operator .percent) (.cons .rightParen (.cons (.operator .subtract)
        (.cons (.operator .negate) (.cons (.constant .pi) .nil))))))))
  have hspaced := spaced_of_walk (walk_of_writes hwrites []) hspelled
  have hminus : ¬ MinusBehindPercent sevenLessPercentageTokens := by decide +kernel
  obtain ⟨htokens, hvalue, -⟩ := minuses_read_in_role hwrites hspaced
  exact ⟨⟨hwrites, hspaced, hminus⟩, htokens.mpr hminus, hvalue hminus⟩

/-- The expression of `5%-1`. -/
def percentageLessOne : Expression :=
  .binary .subtract (.percent (.number 5)) (.number 1)

/-- The minus of `5%-1` is read as the sign of the one, and two values are left. -/
theorem minus_behind_percent_negates :
    percentageLessOne.Writes 0
      [.number 5, .operator .percent, .operator .subtract, .number 1] ∧
    Spelled [.number 5, .operator .percent, .operator .subtract, .number 1] "5%-1".toList ∧
    tokenize "5%-1".toList =
      .ok [.number 5, .operator .percent, .operator .negate, .number 1] ∧
    tokenize "5%-1".toList ≠
      .ok [.number 5, .operator .percent, .operator .subtract, .number 1] ∧
    evaluate "5%-1".toList =
      .failure .invalidSyntax "Expected a single value, 2 left on stack" ∧
    Outcome.of percentageLessOne.value = .success (-0.95) "-0.95".toList := by
  have hfive : Spells (.number 5) ['5'] := .number (by decide +kernel)
  have hone : Spells (.number 1) ['1'] := .number (by decide +kernel)
  have hread : tokenize "5%-1".toList =
      .ok [.number 5, .operator .percent, .operator .negate, .number 1] := by decide +kernel
  refine ⟨?_, ?_, hread, ?_, by decide +kernel, by decide +kernel⟩
  · exact .binary (Nat.zero_le _) (.percent (by decide) (.number 5)) (.number 1)
  · exact .cons hfive (.cons (.operator .percent) (.cons (.operator .subtract) (.cons hone .nil)))
  · rw [hread]
    simp

end DeskCalculator
