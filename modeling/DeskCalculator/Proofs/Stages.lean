import DeskCalculator.Evaluation
import DeskCalculator.Proofs.Reordering
import DeskCalculator.Proofs.Token.Runs

/-!
# Which stage fails

The kind of a failure tells the stage that found it. Reading knows all the names that it yields
(`isKnown_of_mem_lexAfter`) and fails with a kind of its own, or on a literal that cannot be read
(`kind_of_tokenize`): nothing but this is raised (`raised?_eq_some_iff`). Reordering judges
parentheses and commas (`ofTokens_eq_error`) and yields words only, so what runs on the machine are
words whose names are known, and it stops for their values, a lack of operands or a wrong number of
values (`fault_of_run`). So each kind is reported exactly where one stage fails, or on the syntax
(`failsWith_iff_reported`), and nothing else comes of an evaluation (`evaluate_ends`).
-/

namespace DeskCalculator

/-! ### Reading -/

namespace Token

variable {previous : Option Token} {text word : Text} {token : Token} {fault : Fault}

theorem isKnown_of_named? (h : named? word = some token) : token.IsKnown := by
  unfold named? at h
  split at h
  · next hf =>
    cases h
    obtain ⟨f, hf⟩ := Option.isSome_iff_exists.mp hf
    exact ⟨f, Builtin.ofName?_eq_some_iff.mp hf⟩
  split at h
  · next hk =>
    cases h
    obtain ⟨k, hk⟩ := Option.isSome_iff_exists.mp hk
    exact ⟨k, Constant.ofName?_eq_some_iff.mp hk⟩
  · cases h

theorem isKnown_of_symbol? {c : Char} (h : symbol? previous c = some token) : token.IsKnown := by
  unfold symbol? at h
  split at h <;> cases h <;> trivial

theorem isKnown_of_mem_lexAfter : ∀ token ∈ (lexAfter previous text).tokens, token.IsKnown := by
  fun_induction lexAfter previous text with
  | case1 => exact fun _ h => nomatch h
  | case2 previous c rest hblank ih => exact ih
  | case3 previous c rest hblank hletter word token hnamed ih =>
    exact List.forall_mem_cons.mpr ⟨isKnown_of_named? hnamed, ih⟩
  | case4 => exact fun _ h => nomatch h
  | case5 previous c rest hblank hletter hbegins run value hread ih =>
    exact List.forall_mem_cons.mpr ⟨trivial, ih⟩
  | case6 => exact fun _ h => nomatch h
  | case7 previous c rest hblank hletter hbegins token hsymbol ih =>
    exact List.forall_mem_cons.mpr ⟨isKnown_of_symbol? hsymbol, ih⟩
  | case8 => exact fun _ h => nomatch h

theorem isKnown_of_tokenize {tokens : List Token} (h : tokenize text = .ok tokens) :
    ∀ token ∈ tokens, token.IsKnown := by
  unfold tokenize at h
  simp only at h
  split at h
  · cases h
    exact isKnown_of_mem_lexAfter
  · cases h

theorem exists_offends_of_tokenize (h : tokenize text = .error fault) :
    ∃ run ∈ runs text, ¬ Readable run ∧ Offends run fault := by
  obtain ⟨before, run, after, heq, -, hrun, hoffends, -, -⟩ := stopsAtFirst_of_tokenize h
  exact ⟨run, by simp [heq], hrun, hoffends⟩

/-- **The faults of reading**: an unknown token, or a literal that cannot be read. -/
theorem kind_of_tokenize (h : tokenize text = .error fault) :
    fault.kind = .unknownToken ∨ ∃ run, fault = .unreadableNumber run := by
  obtain ⟨run, -, -, hoffends⟩ := exists_offends_of_tokenize h
  cases hoffends with
  | literal => exact .inr ⟨_, rfl⟩
  | word | number | point | character => exact .inl rfl

theorem kind_of_literalsRead (h : tokenize text = .error fault) (hread : LiteralsRead text) :
    fault.kind = .unknownToken :=
  ((stopsAtFirst_of_tokenize h).of_literalsRead hread).1

end Token

/-! ### Reordering -/

namespace ReversePolish

theorem nestAll_eq_error {opened : Nat} {tokens : List Token} {fault : Fault}
    (h : nestAll opened tokens = .error fault) :
    fault = .missingLeft ∨ fault = .misplacedComma := by
  obtain ⟨before, token, after, opened', -, -, htoken⟩ := nestAll_eq_error_iff.mp h
  obtain ⟨-, ⟨-, hfault⟩ | ⟨-, hfault⟩⟩ := nest_eq_error_iff.mp htoken
  · exact .inl hfault
  · exact .inr hfault

theorem ofTokens_eq_error {tokens : List Token} {fault : Fault}
    (h : ofTokens tokens = .error fault) :
    fault = .missingLeft ∨ fault = .missingRight ∨ fault = .misplacedComma ∧
      ∃ before after, tokens = before ++ .comma :: after ∧ nestAll 0 before = .ok 0 := by
  rcases ofTokens_eq_error_iff.mp h with hall | ⟨opened, -, -, rfl⟩
  · rcases nestAll_eq_error hall with rfl | rfl
    · exact .inl rfl
    · exact .inr (.inr ⟨rfl, nestAll_eq_misplacedComma_iff.mp hall⟩)
  · exact .inr (.inl rfl)

theorem ofTokens_misplacedComma {before after : List Token} (h : nestAll 0 before = .ok 0) :
    ofTokens (before ++ .comma :: after) = .error .misplacedComma :=
  ofTokens_eq_error_iff.mpr (.inl (nestAll_eq_misplacedComma_iff.mpr ⟨before, after, rfl, h⟩))

end ReversePolish

/-! ### Stages -/

open Token ReversePolish

/-- A text that is not blank and its tokens. -/
def Reads (text : Text) (tokens : List Token) : Prop :=
  trim text ≠ [] ∧ tokenize text = .ok tokens

/-- A text that is not blank and its tokens in reverse Polish order. -/
def Orders (text : Text) (ordered : List Token) : Prop :=
  ∃ tokens, Reads text tokens ∧ ofTokens tokens = .ok ordered

/-- Texts with the same tokens, or the same fault, evaluate alike. -/
theorem evaluate_congr {text text' : Text} (h : trim text ≠ []) (h' : trim text' ≠ [])
    (htokens : tokenize text = tokenize text') : evaluate text = evaluate text' := by
  unfold evaluate valueOf
  rw [if_neg h, if_neg h', htokens]

/-- Evaluating a text reports a fault of a kind. -/
def FailsWith (text : Text) (kind : FaultKind) : Prop :=
  ∃ message, evaluate text = .failure kind message

variable {text : Text} {ordered : List Token} {fault : Fault}

theorem failsWith_iff {kind : FaultKind} :
    FailsWith text kind ↔ ∃ fault, valueOf text = .error fault ∧ fault.kind = kind := by
  unfold FailsWith evaluate
  cases valueOf text with
  | ok v => simp
  | error fault => simp

theorem valueOf_of_reads {tokens : List Token} (h : Reads text tokens) :
    valueOf text = (ofTokens tokens).bind fun ordered =>
      (Machine.run ordered).mapError Halt.fault := by
  simp only [valueOf, if_neg h.1, h.2]
  cases ofTokens tokens with
  | error fault => rfl
  | ok ordered =>
    simp only [Except.bind]
    cases Machine.run ordered <;> rfl

theorem valueOf_of_orders (h : Orders text ordered) :
    valueOf text = (Machine.run ordered).mapError Halt.fault := by
  obtain ⟨tokens, hreads, hordered⟩ := h
  rw [valueOf_of_reads hreads, hordered]
  rfl

/-- **Where an evaluation fails**: on a blank text, or at one of three stages. -/
theorem valueOf_eq_error_iff : valueOf text = .error fault ↔
    (trim text = [] ∧ fault = .emptyExpression) ∨
    (trim text ≠ [] ∧ tokenize text = .error fault) ∨
    (∃ tokens, Reads text tokens ∧ ofTokens tokens = .error fault) ∨
    ∃ ordered halt, Orders text ordered ∧ Machine.run ordered = .error halt ∧
      fault = halt.fault := by
  constructor
  · intro h
    by_cases hblank : trim text = []
    · rw [valueOf, if_pos hblank] at h
      exact .inl ⟨hblank, (Except.error.inj h).symm⟩
    cases htokens : tokenize text with
    | error fault' =>
      simp only [valueOf, if_neg hblank, htokens] at h
      rw [Except.error.inj h]
      exact .inr (.inl ⟨hblank, rfl⟩)
    | ok tokens =>
      have hreads : Reads text tokens := ⟨hblank, htokens⟩
      rw [valueOf_of_reads hreads] at h
      cases hordered : ofTokens tokens with
      | error fault' =>
        rw [hordered, Except.bind] at h
        rw [Except.error.inj h] at hordered
        exact .inr (.inr (.inl ⟨tokens, hreads, hordered⟩))
      | ok ordered =>
        rw [hordered, Except.bind] at h
        cases hrun : Machine.run ordered with
        | error halt =>
          rw [hrun] at h
          exact .inr (.inr (.inr ⟨ordered, halt, ⟨tokens, hreads, hordered⟩, hrun,
            (Except.error.inj h).symm⟩))
        | ok v =>
          rw [hrun] at h
          cases h
  · rintro (⟨hblank, rfl⟩ | ⟨hne, htokens⟩ | ⟨tokens, hreads, hordered⟩ |
      ⟨ordered, halt, horders, hrun, rfl⟩)
    · rw [valueOf, if_pos hblank]
    · simp only [valueOf, if_neg hne, htokens]
    · rw [valueOf_of_reads hreads, hordered]
      rfl
    · rw [valueOf_of_orders horders, hrun]
      rfl

theorem exists_orders_of_valueOf {v : Float} (h : valueOf text = .ok v) :
    ∃ ordered, Orders text ordered ∧ Machine.run ordered = .ok v := by
  unfold valueOf at h
  split at h
  · cases h
  next hblank =>
  split at h
  · cases h
  next tokens htokens =>
  split at h
  · cases h
  next ordered hordered =>
  split at h
  · cases h
  next hrun =>
  cases h
  exact ⟨ordered, ⟨tokens, ⟨hblank, htokens⟩, hordered⟩, hrun⟩

theorem exists_orders_of_evaluate {shown : Text} {v : Float}
    (h : evaluate text = .success v shown) :
    ∃ ordered, Orders text ordered ∧ Machine.run ordered = .ok v := by
  unfold evaluate at h
  split at h
  · next hvalue =>
    cases h
    exact exists_orders_of_valueOf hvalue
  · cases h

/-- **The value of an expression** is finite and shown as `display` shows it. -/
theorem evaluate_eq_success {shown : Text} {v : Float} (h : evaluate text = .success v shown) :
    v.isFinite = true ∧ shown = Layout.display.write v := by
  obtain ⟨ordered, -, hrun⟩ := exists_orders_of_evaluate h
  unfold evaluate at h
  split at h <;> cases h
  exact ⟨(Machine.run_eq_ok_iff.mp hrun).2, rfl⟩

theorem Orders.words (h : Orders text ordered) :
    ∀ token ∈ ordered, token.isWord = true ∧ token.IsKnown := by
  obtain ⟨tokens, hreads, hordered⟩ := h
  intro token htoken
  obtain ⟨hmem, hword⟩ := List.mem_filter.mp ((perm_of_ofTokens hordered).mem_iff.mp htoken)
  exact ⟨hword, isKnown_of_tokenize hreads.2 token hmem⟩

/-- **The faults of the machine**, which knows all the words that it is given: those that stop it on
a word, a value that is not finite, and a wrong number of values. -/
theorem fault_of_run {halt : Halt} (h : Orders text ordered)
    (hrun : Machine.run ordered = .error halt) :
    halt.fault.kind ∈ Machine.stopKinds ∨
      ∃ stack, Machine.feedAll [] ordered = .ok stack ∧ stack.length ≠ 1 ∧
        halt.fault = .valueCount stack.length := by
  rcases Machine.run_eq_error_iff.mp hrun with hfeed | ⟨stack, hfeed, hresult⟩
  · exact .inl (Machine.kind_of_feedAll h.words hfeed)
  rcases Machine.result_eq_error_iff.mp hresult with ⟨hlength, rfl⟩ | ⟨v, -, -, rfl⟩
  · exact .inr ⟨stack, hfeed, hlength, rfl⟩
  · exact .inl (by decide)

/-- **A fault comes from reading**, or it is of a kind of the other stages. -/
theorem tokenize_eq_error_or_kind (h : valueOf text = .error fault) :
    trim text ≠ [] ∧ tokenize text = .error fault ∨
      fault.kind ∈ .invalidSyntax :: .mismatchedParentheses :: Machine.stopKinds := by
  rcases valueOf_eq_error_iff.mp h with ⟨-, rfl⟩ | hread | ⟨tokens, -, hordered⟩ |
    ⟨ordered, halt, horders, hrun, rfl⟩
  · exact .inr List.mem_cons_self
  · exact .inl hread
  · rcases ofTokens_eq_error hordered with rfl | rfl | ⟨rfl, -⟩
    · exact .inr (List.mem_cons_of_mem _ List.mem_cons_self)
    · exact .inr (List.mem_cons_of_mem _ List.mem_cons_self)
    · exact .inr List.mem_cons_self
  · rcases fault_of_run horders hrun with hstop | ⟨stack, -, -, hcount⟩
    · exact .inr (List.mem_cons_of_mem _ (List.mem_cons_of_mem _ hstop))
    · rw [hcount]
      exact .inr List.mem_cons_self

theorem tokenize_of_unknownToken (h : valueOf text = .error fault)
    (hkind : fault.kind = .unknownToken) : trim text ≠ [] ∧ tokenize text = .error fault := by
  rcases tokenize_eq_error_or_kind h with hread | hlater
  · exact hread
  · rw [hkind] at hlater
    exact absurd hlater (by decide)

/-- **What is raised** is a literal that cannot be read, and nothing else. -/
theorem raised?_eq_some_iff : raised? text = some fault ↔
    trim text ≠ [] ∧ tokenize text = .error fault ∧ ∃ run, fault = .unreadableNumber run := by
  unfold raised?
  constructor
  · intro h
    split at h
    · cases h
    next fault' hvalue =>
    split at h
    · next hraised =>
      cases h
      rcases tokenize_eq_error_or_kind hvalue with ⟨hne, htokens⟩ | hlater
      · refine ⟨hne, htokens, (kind_of_tokenize htokens).resolve_left fun hkind => ?_⟩
        rw [Fault.isRaised, hkind] at hraised
        cases hraised
      · have hanswered : ∀ kind ∈ .invalidSyntax :: .mismatchedParentheses :: Machine.stopKinds,
            kind.isRaised = false := by decide
        exact absurd hraised (Bool.eq_false_iff.mp (hanswered _ hlater))
    · cases h
  · rintro ⟨hne, htokens, run, rfl⟩
    simp only [valueOf_eq_error_iff.mpr (.inr (.inl ⟨hne, htokens⟩))]
    rfl

theorem raised?_of_literalsRead (h : LiteralsRead text) : raised? text = none := by
  rw [Option.eq_none_iff_forall_ne_some]
  intro fault hraised
  obtain ⟨-, htokens, run, rfl⟩ := raised?_eq_some_iff.mp hraised
  cases kind_of_literalsRead htokens h

/-- **When a kind of fault is reported**, or raised. Where no case is given, no text has a fault of
the kind. -/
inductive Reported (text : Text) : FaultKind → Prop
  | unknownToken {fault : Fault} (hne : trim text ≠ []) (h : tokenize text = .error fault)
      (hkind : ∀ run, fault ≠ .unreadableNumber run) : Reported text .unknownToken
  | literal {run : Text} (hne : trim text ≠ [])
      (h : tokenize text = .error (.unreadableNumber run)) : Reported text .unreadableNumber
  | parentheses {tokens : List Token} (hreads : Reads text tokens)
      (h : ofTokens tokens = .error .missingLeft ∨ ofTokens tokens = .error .missingRight) :
      Reported text .mismatchedParentheses
  | machine {ordered : List Token} {halt : Halt} (horders : Orders text ordered)
      (h : Machine.run ordered = .error halt) (hkind : halt.fault.kind ∈ Machine.stopKinds) :
      Reported text halt.fault.kind
  | blank (h : trim text = []) : Reported text .invalidSyntax
  | comma {before after : List Token} (hreads : Reads text (before ++ .comma :: after))
      (h : nestAll 0 before = .ok 0) : Reported text .invalidSyntax
  | valueCount {ordered : List Token} {stack : List Float} (horders : Orders text ordered)
      (h : Machine.feedAll [] ordered = .ok stack) (hlength : stack.length ≠ 1) :
      Reported text .invalidSyntax

theorem failsWith_iff_reported {kind : FaultKind} : FailsWith text kind ↔ Reported text kind := by
  rw [failsWith_iff]
  constructor
  · rintro ⟨fault, hfault, rfl⟩
    rcases valueOf_eq_error_iff.mp hfault with
      ⟨hblank, rfl⟩ | ⟨hne, htokens⟩ | ⟨tokens, hreads, hordered⟩ |
        ⟨ordered, halt, horders, hrun, rfl⟩
    · exact .blank hblank
    · rcases kind_of_tokenize htokens with hkind | ⟨run, rfl⟩
      · rw [hkind]
        refine .unknownToken hne htokens fun run heq => ?_
        rw [heq] at hkind
        cases hkind
      · exact .literal hne htokens
    · rcases ofTokens_eq_error hordered with rfl | rfl | ⟨rfl, before, after, rfl, hbefore⟩
      · exact .parentheses hreads (.inl hordered)
      · exact .parentheses hreads (.inr hordered)
      · exact .comma hreads hbefore
    · rcases fault_of_run horders hrun with hkind | ⟨stack, hfeed, hlength, heq⟩
      · exact .machine horders hrun hkind
      · rw [heq]
        exact .valueCount horders hfeed hlength
  · intro h
    cases h with
    | unknownToken hne htokens hread =>
      refine ⟨_, valueOf_eq_error_iff.mpr (.inr (.inl ⟨hne, htokens⟩)), ?_⟩
      exact (kind_of_tokenize htokens).resolve_right fun ⟨run, heq⟩ => hread run heq
    | literal hne htokens =>
      exact ⟨_, valueOf_eq_error_iff.mpr (.inr (.inl ⟨hne, htokens⟩)), rfl⟩
    | @parentheses tokens hreads h =>
      rcases h with h | h
      · exact ⟨_, valueOf_eq_error_iff.mpr (.inr (.inr (.inl ⟨tokens, hreads, h⟩))), rfl⟩
      · exact ⟨_, valueOf_eq_error_iff.mpr (.inr (.inr (.inl ⟨tokens, hreads, h⟩))), rfl⟩
    | @machine ordered halt horders h =>
      exact ⟨_, valueOf_eq_error_iff.mpr (.inr (.inr (.inr ⟨ordered, halt, horders, h, rfl⟩))), rfl⟩
    | blank hblank => exact ⟨_, valueOf_eq_error_iff.mpr (.inl ⟨hblank, rfl⟩), rfl⟩
    | @comma before after hreads h =>
      have hordered : ofTokens (before ++ .comma :: after) = .error .misplacedComma :=
        ofTokens_misplacedComma h
      exact ⟨_, valueOf_eq_error_iff.mpr (.inr (.inr (.inl ⟨_, hreads, hordered⟩))), rfl⟩
    | @valueCount ordered stack horders h hlength =>
      have hresult := Machine.result_eq_error_iff.mpr (.inl ⟨hlength, rfl⟩)
      have hrun := Machine.run_eq_error_iff.mpr (.inr ⟨stack, h, hresult⟩)
      exact ⟨_, valueOf_eq_error_iff.mpr (.inr (.inr (.inr ⟨_, _, horders, hrun, rfl⟩))), rfl⟩

theorem not_failsWith_unreadableNumber (hread : LiteralsRead text) :
    ¬ FailsWith text .unreadableNumber := by
  rw [failsWith_iff]
  rintro ⟨fault, hvalue, hkind⟩
  have hraised : raised? text = some fault := by
    simp [raised?, hvalue, Fault.isRaised, hkind, FaultKind.isRaised]
  rw [raised?_of_literalsRead hread] at hraised
  cases hraised

theorem failsWith_unknownToken_iff (hread : LiteralsRead text) :
    FailsWith text .unknownToken ↔ trim text ≠ [] ∧ ∃ fault, tokenize text = .error fault := by
  rw [failsWith_iff]
  constructor
  · rintro ⟨fault, hvalue, hkind⟩
    obtain ⟨hne, htokens⟩ := tokenize_of_unknownToken hvalue hkind
    exact ⟨hne, fault, htokens⟩
  · rintro ⟨hne, fault, htokens⟩
    exact ⟨fault, valueOf_eq_error_iff.mpr (.inr (.inl ⟨hne, htokens⟩)),
      kind_of_literalsRead htokens hread⟩

/-- **How an evaluation ends**: with a finite value and its displayed form, or with a fault of
exactly one kind, which tells the stage that failed and why. The machine meets neither a name that
it does not know nor punctuation. Where the number reader reads the literals of the text, nothing is
raised and an unknown token is reported exactly where a text that is not blank cannot be read. -/
theorem evaluate_ends (text : Text) :
    Xor (∃ v, v.isFinite = true ∧ evaluate text = .success v (Layout.display.write v))
      (∃! kind, FailsWith text kind) ∧
    (∀ kind, FailsWith text kind ↔ Reported text kind) ∧
    (∀ ordered halt, Orders text ordered → Machine.run ordered = .error halt → ∀ name,
      halt.fault ≠ .unknownConstant name ∧ halt.fault ≠ .unknownFunction name ∧
        halt.fault ≠ .unexpected name) ∧
    (LiteralsRead text → raised? text = none ∧ ¬ FailsWith text .unreadableNumber ∧
      (FailsWith text .unknownToken ↔ trim text ≠ [] ∧ ∃ fault, tokenize text = .error fault)) := by
  refine ⟨?_, fun kind => failsWith_iff_reported, fun ordered halt horders hrun name => ?_,
    fun hread => ⟨raised?_of_literalsRead hread, not_failsWith_unreadableNumber hread,
      failsWith_unknownToken_iff hread⟩⟩
  · cases h : evaluate text with
    | success v shown =>
      obtain ⟨hfinite, rfl⟩ := evaluate_eq_success h
      refine .inl ⟨⟨v, hfinite, rfl⟩, ?_⟩
      rintro ⟨kind, ⟨message, hfails⟩, -⟩
      rw [h] at hfails
      cases hfails
    | failure kind message =>
      refine .inr ⟨⟨kind, ⟨message, h⟩, ?_⟩, ?_⟩
      · rintro kind' ⟨message', hfails⟩
        rw [h] at hfails
        cases hfails
        rfl
      · rintro ⟨v, -, hsuccess⟩
        cases hsuccess
  · have hname : FaultKind.unknownName ∉ Machine.stopKinds := by decide
    have hsyntax : FaultKind.invalidSyntax ∉ Machine.stopKinds := by decide
    rcases fault_of_run horders hrun with hkind | ⟨stack, -, -, heq⟩
    · refine ⟨fun heq => ?_, fun heq => ?_, fun heq => ?_⟩
      · rw [heq] at hkind
        exact hname hkind
      · rw [heq] at hkind
        exact hname hkind
      · rw [heq] at hkind
        exact hsyntax hkind
    · rw [heq]
      exact ⟨nofun, nofun, nofun⟩

/-- A plus without operands. -/
theorem evaluate_ends_plus :
    Orders ['+'] [.operator .add] ∧
    Machine.run [.operator .add] = .error ⟨.underflow 2, []⟩ ∧
    FailsWith ['+'] .stackUnderflow ∧
    (∀ name, Fault.underflow 2 ≠ .unknownConstant name ∧
      Fault.underflow 2 ≠ .unknownFunction name ∧ Fault.underflow 2 ≠ .unexpected name) ∧
    LiteralsRead ['+'] ∧ raised? ['+'] = none := by
  have htokens : tokenize ['+'] = .ok [.operator .add] := by
    have hlex : lex ['+'] = (lexAfter (some (.operator .add)) []).after (.operator .add) :=
      lexAfter_symbol (by decide +kernel) rfl
    rw [lexAfter] at hlex
    simp only [tokenize, hlex, Lexed.after]
  have horders : Orders ['+'] [.operator .add] :=
    ⟨_, ⟨by decide +kernel, htokens⟩, rfl⟩
  have hrun : Machine.run [.operator .add] = .error ⟨.underflow 2, []⟩ := rfl
  have hread : LiteralsRead ['+'] := (digitsRead_of_all (by decide +kernel)).literalsRead
  obtain ⟨-, hkinds, hfaults, hraised⟩ := evaluate_ends ['+']
  exact ⟨horders, hrun, (hkinds _).mpr (.machine horders hrun (by decide)),
    hfaults _ _ horders hrun, hread, (hraised hread).1⟩

/-- A separator is blank, so it is an empty expression, though no token can be read from it. -/
theorem failsWith_separator :
    tokenize ['\x1c'] = .error (.unknownCharacter '\x1c') ∧
    ¬ FailsWith ['\x1c'] .unknownToken ∧ FailsWith ['\x1c'] .invalidSyntax := by
  have hlex : lex ['\x1c'] = { fault := some (.unknownCharacter '\x1c') } :=
    lexAfter_unknown_character (by decide +kernel) (by decide)
  have hblank : trim ['\x1c'] = [] := by decide +kernel
  have hempty : evaluate ['\x1c'] = .failure .invalidSyntax "Expression is empty" := by
    rw [evaluate, valueOf, if_pos hblank]
    rfl
  refine ⟨by simp only [tokenize, hlex], ?_, _, hempty⟩
  rintro ⟨message, h⟩
  rw [hempty] at h
  cases h

end DeskCalculator
