import DeskCalculator.Proofs.InfixPlaces

/-!
# Running short of operands

An operation finds out that it lacks operands when it is run. Counting finds the same out without
any value: each token takes its operands and leaves one value (`gain_eq`), so as long as the machine
runs it has as many values as are counted (`length_of_feedAll`), and it stops for a lack of operands
exactly at the first token that has too few by counting (`feedAll_eq_underflow`), unless a token
before it fails on the values of its operands. At the end the count is that of the values left. So
what a run reports is decided by counting alone, values that fail and a last value that is not
finite aside (`run_decided_by_counting`).
-/

namespace DeskCalculator

/-- The number of operands that a token takes. -/
def Token.arity : Token → Nat
  | .operator .negate | .operator .percent => 1
  | .operator _ => 2
  | .function name => if name = Builtin.pow.name then 2 else 1
  | _ => 0

theorem arity_operator (op : Operator) : op.operation.arity = (Token.operator op).arity := by
  cases op <;> rfl

theorem arity_builtin (f : Builtin) : f.operation.arity = (Token.function f.name).arity := by
  cases f <;> rfl

theorem gain_eq {token : Token} (hword : token.isWord = true) (hknown : token.IsKnown) :
    token.gain = 1 - token.arity := by
  cases token with
  | number v => rfl
  | constant name => rfl
  | operator op => rw [Token.gain, arity_operator]
  | function name =>
    obtain ⟨f, rfl⟩ := hknown
    have hname : Builtin.ofName? f.name = some f := Builtin.ofName?_eq_some_iff.mpr rfl
    simp only [Token.gain, hname, Option.elim_some, arity_builtin]
  | leftParen => cases hword
  | rightParen => cases hword
  | comma => cases hword

namespace Machine

variable {stack stack' : List Float} {halt : Halt} {operation : Operation} {token : Token}
  {tokens : List Token}

/-! ### One token -/

theorem length_of_apply (h : apply stack operation = .ok stack') :
    operation.arity ≤ stack.length ∧ stack'.length + operation.arity = stack.length + 1 := by
  cases operation with
  | unary f =>
    obtain ⟨x, rest, v, rfl, -, rfl⟩ := apply_unary_eq_ok_iff.mp h
    simp [Operation.arity]
  | binary f =>
    obtain ⟨x, y, rest, v, rfl, -, rfl⟩ := apply_binary_eq_ok_iff.mp h
    simp [Operation.arity]

/-- An operation that stops the machine lacks operands, or it has them and fails on their values. -/
theorem apply_eq_error (hop : FailsByValue operation) (h : apply stack operation = .error halt) :
    stack.length < operation.arity ∧ halt = ⟨.underflow operation.arity, stack⟩ ∨
      operation.arity ≤ stack.length ∧ halt.fault.kind ∈ valueKinds := by
  cases operation with
  | unary f =>
    rcases apply_unary_eq_error_iff.mp h with ⟨rfl, rfl⟩ | ⟨x, rest, fault, rfl, hx, rfl⟩
    · exact .inl ⟨Nat.one_pos, rfl⟩
    · exact .inr ⟨Nat.le_add_left 1 rest.length, hop x fault hx⟩
  | binary f =>
    rcases apply_binary_eq_error_iff.mp h with ⟨hlength, rfl⟩ | ⟨x, y, rest, fault, rfl, hxy, rfl⟩
    · exact .inl ⟨hlength, rfl⟩
    · exact .inr ⟨Nat.le_add_left 2 rest.length, hop x y fault hxy⟩

/-- **What a word does**: it pushes a value, or it applies an operation with as many operands. -/
theorem feed_word (hword : token.isWord = true) (hknown : token.IsKnown) :
    (token.arity = 0 ∧ ∃ v, ∀ stack, feed stack token = .ok (v :: stack)) ∨
      ∃ operation, operation.arity = token.arity ∧ FailsByValue operation ∧
        ∀ stack, feed stack token = apply stack operation := by
  cases token with
  | number v => exact .inl ⟨rfl, v, fun _ => rfl⟩
  | constant name =>
    obtain ⟨k, rfl⟩ := hknown
    refine .inl ⟨rfl, k.value, fun stack => ?_⟩
    rw [feed, Constant.ofName?_eq_some_iff.mpr rfl]
  | operator op =>
    exact .inr ⟨op.operation, arity_operator op, failsByValue_operator op, fun _ => rfl⟩
  | function name =>
    obtain ⟨f, rfl⟩ := hknown
    refine .inr ⟨f.operation, arity_builtin f, failsByValue_builtin f, fun stack => ?_⟩
    rw [feed, Builtin.ofName?_eq_some_iff.mpr rfl]
  | leftParen => cases hword
  | rightParen => cases hword
  | comma => cases hword

theorem length_of_feed (hword : token.isWord = true) (hknown : token.IsKnown)
    (h : feed stack token = .ok stack') :
    token.arity ≤ stack.length ∧ (stack'.length : Int) = stack.length + token.gain := by
  have hgain := gain_eq hword hknown
  rcases feed_word hword hknown with ⟨hzero, v, hfeed⟩ | ⟨operation, harity, -, hfeed⟩
  · rw [hfeed] at h
    cases h
    rw [List.length_cons]
    omega
  · rw [hfeed] at h
    have hlength := length_of_apply h
    omega

/-- **A word that stops the machine** lacks operands, or it has them and fails on their values. -/
theorem feed_eq_error (hword : token.isWord = true) (hknown : token.IsKnown)
    (h : feed stack token = .error halt) :
    stack.length < token.arity ∧ halt = ⟨.underflow token.arity, stack⟩ ∨
      token.arity ≤ stack.length ∧ halt.fault.kind ∈ valueKinds := by
  rcases feed_word hword hknown with ⟨-, v, hfeed⟩ | ⟨operation, harity, hop, hfeed⟩
  · rw [hfeed] at h
    cases h
  · rw [hfeed] at h
    rw [← harity]
    exact apply_eq_error hop h

theorem feed_eq_underflow (hword : token.isWord = true) (hknown : token.IsKnown)
    (h : stack.length < token.arity) :
    feed stack token = .error ⟨.underflow token.arity, stack⟩ := by
  cases hfeed : feed stack token with
  | ok stack' =>
    have hlength := length_of_feed hword hknown hfeed
    omega
  | error halt =>
    rcases feed_eq_error hword hknown hfeed with ⟨-, rfl⟩ | ⟨hle, -⟩
    · rfl
    · omega

/-! ### Many tokens -/

theorem feedAll_eq_error_iff : feedAll stack tokens = .error halt ↔
    ∃ before token after reached, tokens = before ++ token :: after ∧
      feedAll stack before = .ok reached ∧ feed reached token = .error halt := by
  constructor
  · intro h
    induction tokens generalizing stack with
    | nil => cases h
    | cons token tokens ih =>
      rw [feedAll] at h
      cases hfeed : feed stack token with
      | error halt' =>
        rw [hfeed] at h
        obtain rfl : halt' = halt := Except.error.inj h
        exact ⟨[], token, tokens, stack, rfl, rfl, hfeed⟩
      | ok stack' =>
        rw [hfeed] at h
        obtain ⟨before, last, after, reached, rfl, hbefore, hlast⟩ := ih h
        exact ⟨token :: before, last, after, reached, rfl, by rw [feedAll, hfeed]; exact hbefore,
          hlast⟩
  · rintro ⟨before, token, after, reached, rfl, hbefore, htoken⟩
    rw [feedAll_append, hbefore]
    simp only [feedAll, htoken]

/-- **As long as the machine runs, it has the values that are counted.** -/
theorem length_of_feedAll (hwords : ∀ token ∈ tokens, token.isWord = true ∧ token.IsKnown)
    (h : feedAll stack tokens = .ok stack') :
    (stack'.length : Int) = stack.length + gains tokens := by
  induction tokens generalizing stack with
  | nil =>
    cases h
    have hnil : gains [] = 0 := rfl
    omega
  | cons token tokens ih =>
    obtain ⟨⟨hword, hknown⟩, hrest⟩ := List.forall_mem_cons.mp hwords
    rw [feedAll] at h
    split at h
    · next reached hfeed =>
      have hstep := length_of_feed hword hknown hfeed
      have hlater := ih hrest h
      have hcons : gains (token :: tokens) = token.gain + gains tokens := List.sum_cons
      omega
    · cases h

/-- A token fails on the values of its operands. Those before it are run, so it is the first that
stops the machine. -/
def FailsOnValues (tokens : List Token) (halt : Halt) : Prop :=
  ∃ before token after stack, tokens = before ++ token :: after ∧
    feedAll [] before = .ok stack ∧ feed stack token = .error halt ∧
    halt.fault.kind ∈ [.divideByZero, .domainError]

/-- By counting, each token has its operands. -/
def Supplied (tokens : List Token) : Prop :=
  ∀ before token after, tokens = before ++ token :: after → (token.arity : Int) ≤ gains before

/-- By counting, a token with a number of operands is the first that lacks some. -/
def RunsShort (tokens : List Token) (arity : Nat) : Prop :=
  ∃ before token after, tokens = before ++ token :: after ∧ Supplied before ∧
    gains before < token.arity ∧ token.arity = arity

theorem FailsOnValues.feedAll (h : FailsOnValues tokens halt) :
    feedAll [] tokens = .error halt := by
  obtain ⟨before, token, after, stack, heq, hbefore, htoken, -⟩ := h
  exact feedAll_eq_error_iff.mpr ⟨before, token, after, stack, heq, hbefore, htoken⟩

theorem FailsOnValues.append {before after : List Token} (h : FailsOnValues before halt) :
    FailsOnValues (before ++ after) halt := by
  obtain ⟨first, token, rest, stack, rfl, hbefore, htoken, hkind⟩ := h
  exact ⟨first, token, rest ++ after, stack, by simp, hbefore, htoken, hkind⟩

theorem supplied_of_feedAll (hwords : ∀ token ∈ tokens, token.isWord = true ∧ token.IsKnown)
    (h : feedAll [] tokens = .ok stack) : Supplied tokens := by
  rintro before token after rfl
  obtain ⟨hbefore, hrest⟩ := List.forall_mem_append.mp hwords
  obtain ⟨⟨hword, hknown⟩, -⟩ := List.forall_mem_cons.mp hrest
  rw [feedAll_append] at h
  split at h
  · next reached hreached =>
    rw [feedAll] at h
    split at h
    · next hfeed =>
      have hcount := length_of_feedAll hbefore hreached
      have hstep := length_of_feed hword hknown hfeed
      rw [List.length_nil] at hcount
      omega
    · cases h
  · cases h

/-- **What stops the machine**: values on which a token fails, or the first token that lacks
operands. -/
theorem feedAll_eq_error (hwords : ∀ token ∈ tokens, token.isWord = true ∧ token.IsKnown)
    (h : feedAll [] tokens = .error halt) : FailsOnValues tokens halt ∨
      ∃ arity, RunsShort tokens arity ∧ halt.fault = .underflow arity := by
  obtain ⟨before, token, after, reached, rfl, hreached, htoken⟩ := feedAll_eq_error_iff.mp h
  obtain ⟨hbefore, hrest⟩ := List.forall_mem_append.mp hwords
  obtain ⟨⟨hword, hknown⟩, -⟩ := List.forall_mem_cons.mp hrest
  rcases feed_eq_error hword hknown htoken with ⟨hshort, rfl⟩ | ⟨-, hkind⟩
  · have hcount := length_of_feedAll hbefore hreached
    have hlacks : gains before < token.arity := by
      rw [List.length_nil] at hcount
      omega
    have hsupplied := supplied_of_feedAll hbefore hreached
    exact .inr ⟨token.arity, ⟨before, token, after, rfl, hsupplied, hlacks, rfl⟩, rfl⟩
  · exact .inl ⟨before, token, after, reached, rfl, hreached, htoken, hkind⟩

theorem Supplied.not_runsShort {arity : Nat} (h : Supplied tokens) : ¬ RunsShort tokens arity := by
  rintro ⟨before, token, after, heq, -, hlacks, -⟩
  have hle := h before token after heq
  omega

theorem exists_feedAll_of_supplied
    (hwords : ∀ token ∈ tokens, token.isWord = true ∧ token.IsKnown)
    (hvalues : ∀ halt, ¬ FailsOnValues tokens halt) (h : Supplied tokens) :
    ∃ stack, feedAll [] tokens = .ok stack ∧ (stack.length : Int) = gains tokens := by
  cases hfeed : feedAll [] tokens with
  | ok stack =>
    have hcount := length_of_feedAll hwords hfeed
    exact ⟨stack, rfl, by rw [List.length_nil] at hcount; omega⟩
  | error halt =>
    rcases feedAll_eq_error hwords hfeed with hfails | ⟨arity, hshort, -⟩
    · exact absurd hfails (hvalues halt)
    · exact absurd hshort h.not_runsShort

/-- **The first token that lacks operands stops the machine**, if none before it fails on values. -/
theorem feedAll_eq_underflow
    (hwords : ∀ token ∈ tokens, token.isWord = true ∧ token.IsKnown)
    (hvalues : ∀ halt, ¬ FailsOnValues tokens halt) {arity : Nat} (h : RunsShort tokens arity) :
    ∃ stack, feedAll [] tokens = .error ⟨.underflow arity, stack⟩ := by
  obtain ⟨before, token, after, rfl, hsupplied, hlacks, rfl⟩ := h
  obtain ⟨hbefore, hrest⟩ := List.forall_mem_append.mp hwords
  obtain ⟨⟨hword, hknown⟩, -⟩ := List.forall_mem_cons.mp hrest
  obtain ⟨stack, hstack, hcount⟩ := exists_feedAll_of_supplied hbefore
    (fun halt hfails => hvalues halt hfails.append) hsupplied
  have hlack : stack.length < token.arity := by omega
  have hstop := feed_eq_underflow hword hknown hlack
  exact ⟨stack, feedAll_eq_error_iff.mpr ⟨before, token, after, stack, rfl, hstack, hstop⟩⟩

/-! ### Runs -/

/-- A run stops with a kind of fault and a message. -/
def StopsWith (tokens : List Token) (kind : FaultKind) (message : String) : Prop :=
  ∃ halt, run tokens = .error halt ∧ halt.fault.kind = kind ∧ halt.fault.message = message

theorem FailsOnValues.run (h : FailsOnValues tokens halt) : run tokens = .error halt :=
  run_eq_error_iff.mpr (.inl h.feedAll)

theorem not_failsOnValues_of_run (h : run tokens = .error halt)
    (hkind : halt.fault.kind ∉ [.divideByZero, .domainError]) (halt' : Halt) :
    ¬ FailsOnValues tokens halt' := by
  intro hfails
  obtain rfl : halt = halt' := Except.error.inj (h.symm.trans hfails.run)
  obtain ⟨-, -, -, -, -, -, -, hvalue⟩ := hfails
  exact hkind hvalue

/-- **Why a run fails**: on values, at the first token that lacks operands, or at the end. -/
theorem run_eq_error (hwords : ∀ token ∈ tokens, token.isWord = true ∧ token.IsKnown)
    (h : run tokens = .error halt) : FailsOnValues tokens halt ∨
      (∃ arity, RunsShort tokens arity ∧ halt.fault = .underflow arity) ∨
      ∃ stack, feedAll [] tokens = .ok stack ∧
        (stack.length ≠ 1 ∧ halt.fault = .valueCount stack.length ∨
          halt.fault = .notFinite) := by
  rcases run_eq_error_iff.mp h with hfeed | ⟨stack, hfeed, hresult⟩
  · rcases feedAll_eq_error hwords hfeed with hfails | hshort
    · exact .inl hfails
    · exact .inr (.inl hshort)
  · refine .inr (.inr ⟨stack, hfeed, ?_⟩)
    rcases result_eq_error_iff.mp hresult with ⟨hlength, rfl⟩ | ⟨v, -, -, rfl⟩
    · exact .inl ⟨hlength, rfl⟩
    · exact .inr rfl

/-- **A lack of operands** is reported with the number of operands of the first token that lacks
some. -/
theorem stopsWith_stackUnderflow_iff
    (hwords : ∀ token ∈ tokens, token.isWord = true ∧ token.IsKnown) {message : String} :
    StopsWith tokens .stackUnderflow message ↔ (∀ halt, ¬ FailsOnValues tokens halt) ∧
      ∃ arity, RunsShort tokens arity ∧
        message = "Less than " ++ toString arity ++ " operand(s) on stack" := by
  constructor
  · rintro ⟨halt, hrun, hkind, rfl⟩
    have hvalues := not_failsOnValues_of_run hrun (by rw [hkind]; decide)
    refine ⟨hvalues, ?_⟩
    rcases run_eq_error hwords hrun with
      hfails | ⟨arity, hshort, heq⟩ | ⟨stack, -, ⟨-, heq⟩ | heq⟩
    · exact absurd hfails (hvalues halt)
    · exact ⟨arity, hshort, by rw [heq]; rfl⟩
    · rw [heq] at hkind
      cases hkind
    · rw [heq] at hkind
      cases hkind
  · rintro ⟨hvalues, arity, hshort, rfl⟩
    obtain ⟨stack, hfeed⟩ := feedAll_eq_underflow hwords hvalues hshort
    exact ⟨_, run_eq_error_iff.mpr (.inl hfeed), rfl, rfl⟩

/-- **A wrong number of values** is reported with the number that is counted at the end. -/
theorem stopsWith_invalidSyntax_iff
    (hwords : ∀ token ∈ tokens, token.isWord = true ∧ token.IsKnown) {message : String} :
    StopsWith tokens .invalidSyntax message ↔ (∀ halt, ¬ FailsOnValues tokens halt) ∧
      Supplied tokens ∧ ∃ left : Nat, gains tokens = left ∧ left ≠ 1 ∧
        message = "Expected a single value, " ++ toString left ++ " left on stack" := by
  constructor
  · rintro ⟨halt, hrun, hkind, rfl⟩
    have hvalues := not_failsOnValues_of_run hrun (by rw [hkind]; decide)
    refine ⟨hvalues, ?_⟩
    rcases run_eq_error hwords hrun with
      hfails | ⟨arity, -, heq⟩ | ⟨stack, hfeed, ⟨hlength, heq⟩ | heq⟩
    · exact absurd hfails (hvalues halt)
    · rw [heq] at hkind
      cases hkind
    · have hcount := length_of_feedAll hwords hfeed
      rw [List.length_nil] at hcount
      refine ⟨supplied_of_feedAll hwords hfeed, stack.length, by omega, hlength, ?_⟩
      rw [heq]
      rfl
    · rw [heq] at hkind
      cases hkind
  · rintro ⟨hvalues, hsupplied, left, hleft, hne, rfl⟩
    obtain ⟨stack, hfeed, hcount⟩ := exists_feedAll_of_supplied hwords hvalues hsupplied
    obtain rfl : stack.length = left := by omega
    have hresult := result_eq_error_iff.mpr (.inl ⟨hne, rfl⟩)
    exact ⟨_, run_eq_error_iff.mpr (.inr ⟨stack, hfeed, hresult⟩), rfl, rfl⟩

/-- **What is left to fail**: where the count is one at the end, only a value that is not finite. -/
theorem run_of_supplied (hwords : ∀ token ∈ tokens, token.isWord = true ∧ token.IsKnown)
    (hvalues : ∀ halt, ¬ FailsOnValues tokens halt) (hsupplied : Supplied tokens)
    (hone : gains tokens = 1) : ∃ v, feedAll [] tokens = .ok [v] ∧
      (v.isFinite = true ∧ run tokens = .ok v ∨ v.isFinite = false ∧
        StopsWith tokens .domainError "Result is not a finite number") := by
  obtain ⟨stack, hfeed, hcount⟩ := exists_feedAll_of_supplied hwords hvalues hsupplied
  obtain ⟨v, rfl⟩ := List.length_eq_one_iff.mp (show stack.length = 1 by omega)
  refine ⟨v, hfeed, ?_⟩
  cases hfinite : v.isFinite with
  | true => exact .inl ⟨rfl, run_eq_ok_iff.mpr ⟨hfeed, hfinite⟩⟩
  | false =>
    have hresult := result_eq_error_iff.mpr (.inr ⟨v, rfl, hfinite, rfl⟩)
    exact .inr ⟨rfl, _, run_eq_error_iff.mpr (.inr ⟨[v], hfeed, hresult⟩), rfl, rfl⟩

/-- **Counting decides what a run reports.** Let each word take its operands and leave one value,
and nothing be there at first. If a token fails on the values of its operands, that is what the run
reports. Otherwise it reports a lack of operands exactly if by counting some token has too few, and
names the number of operands of the first such token; if none has, it reports a wrong number of
values exactly if the count at the end is not one, and names that count; and if that is one, nothing
but a value that is not finite is left to fail. -/
theorem run_decided_by_counting
    (hwords : ∀ token ∈ tokens, token.isWord = true ∧ token.IsKnown) :
    (gains [] = 0 ∧ ∀ before token after, tokens = before ++ token :: after →
      gains (before ++ [token]) = gains before - token.arity + 1) ∧
    (∀ halt, FailsOnValues tokens halt → run tokens = .error halt) ∧
    (∀ message, StopsWith tokens .stackUnderflow message ↔
      (∀ halt, ¬ FailsOnValues tokens halt) ∧ ∃ arity, RunsShort tokens arity ∧
        message = "Less than " ++ toString arity ++ " operand(s) on stack") ∧
    (∀ message, StopsWith tokens .invalidSyntax message ↔
      (∀ halt, ¬ FailsOnValues tokens halt) ∧ Supplied tokens ∧
        ∃ left : Nat, gains tokens = left ∧ left ≠ 1 ∧
          message = "Expected a single value, " ++ toString left ++ " left on stack") ∧
    ((∀ halt, ¬ FailsOnValues tokens halt) → Supplied tokens → gains tokens = 1 →
      ∃ v, feedAll [] tokens = .ok [v] ∧
        (v.isFinite = true ∧ run tokens = .ok v ∨ v.isFinite = false ∧
          StopsWith tokens .domainError "Result is not a finite number")) := by
  refine ⟨⟨rfl, ?_⟩, fun _ => FailsOnValues.run, fun _ => stopsWith_stackUnderflow_iff hwords,
    fun _ => stopsWith_invalidSyntax_iff hwords, run_of_supplied hwords⟩
  rintro before token after rfl
  obtain ⟨hword, hknown⟩ := hwords token (by simp)
  have hgain := gain_eq hword hknown
  rw [gains_append, gains_singleton]
  omega

/-- A plus behind one number. -/
def shortSum : List Token := [.number 6, .operator .add]

/-- A plus behind a quotient by zero, without another operand. -/
def quotientOfZero : List Token := [.number 1, .number 0, .operator .divide, .operator .add]

/-- Two numbers and their product. -/
def soleProduct : List Token := [.number 2, .number 3, .operator .multiply]

/-- The plus in `shortSum` lacks an operand; the one in `quotientOfZero` does too, but the division
before it fails; and `soleProduct` leaves one value. -/
theorem run_decided_by_counting_shortage :
    ((∀ token ∈ shortSum, token.isWord = true ∧ token.IsKnown) ∧ RunsShort shortSum 2 ∧
      StopsWith shortSum .stackUnderflow "Less than 2 operand(s) on stack") ∧
    ((∀ token ∈ quotientOfZero, token.isWord = true ∧ token.IsKnown) ∧
      FailsOnValues quotientOfZero ⟨.divisionByZero, []⟩ ∧
      run quotientOfZero = .error ⟨.divisionByZero, []⟩) ∧
    (∀ token ∈ soleProduct, token.isWord = true ∧ token.IsKnown) ∧
      (∀ halt, ¬ FailsOnValues soleProduct halt) ∧ Supplied soleProduct ∧
      gains soleProduct = 1 ∧ ∃ v, feedAll [] soleProduct = .ok [v] := by
  have hsum : ∀ token ∈ shortSum, token.isWord = true ∧ token.IsKnown := by
    simp [shortSum, Token.isWord, Token.IsKnown]
  have hquotient : ∀ token ∈ quotientOfZero, token.isWord = true ∧ token.IsKnown := by
    simp [quotientOfZero, Token.isWord, Token.IsKnown]
  have hproduct : ∀ token ∈ soleProduct, token.isWord = true ∧ token.IsKnown := by
    simp [soleProduct, Token.isWord, Token.IsKnown]
  have hfed : feedAll [] [.number 6] = .ok [6] := rfl
  have hnumber : Supplied [.number 6] :=
    supplied_of_feedAll (by simp [Token.isWord, Token.IsKnown]) hfed
  have hshort : RunsShort shortSum 2 :=
    ⟨[.number 6], .operator .add, [], rfl, hnumber, by decide, rfl⟩
  have hstop : run shortSum = .error ⟨.underflow 2, [6]⟩ := rfl
  have hfails : FailsOnValues quotientOfZero ⟨.divisionByZero, []⟩ :=
    ⟨[.number 1, .number 0], .operator .divide, [.operator .add], [0, 1], rfl, rfl,
      by decide +kernel, by decide⟩
  have hfeed : feedAll [] soleProduct = .ok [2 * 3] := rfl
  have hvalues : ∀ halt, ¬ FailsOnValues soleProduct halt := by
    intro halt h
    cases hfeed.symm.trans h.feedAll
  have hsupplied : Supplied soleProduct := supplied_of_feedAll hproduct hfeed
  obtain ⟨-, -, hunderflow, -, -⟩ := run_decided_by_counting hsum
  obtain ⟨-, hvalue, -, -, -⟩ := run_decided_by_counting hquotient
  obtain ⟨-, -, -, -, hrest⟩ := run_decided_by_counting hproduct
  obtain ⟨v, hv, -⟩ := hrest hvalues hsupplied (by decide)
  have hnone := not_failsOnValues_of_run hstop (by decide)
  exact ⟨⟨hsum, hshort, (hunderflow _).mpr ⟨hnone, 2, hshort, by decide⟩⟩,
    ⟨hquotient, hfails, hvalue _ hfails⟩, hproduct, hvalues, hsupplied, by decide, v, hv⟩

end Machine

end DeskCalculator
