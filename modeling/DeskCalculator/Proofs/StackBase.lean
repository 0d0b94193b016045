import DeskCalculator.Proofs.OperandCount

/-!
# What lies below the operands

A machine sees no more of its stack than the operands that it takes from the top. Put on a base, a
stack therefore runs as it does without: the base stays below what is left, and a token that stops
the machine is the same one with the same fault (`feed_onto`, `feedAll_onto`). This fails in one
case only, that of a token which lacks operands: on a base it would go on with what it finds there.
What is left behind a fault tells which it was (`feed_eq_error_cases`): a token that lacks operands
takes none, one that fails on their values has taken these and nothing else, and one that is no word
or has an unknown name leaves the stack too. Both together are `sees_operands_only`.
-/

namespace DeskCalculator

/-- A halt with a base below the stack. -/
def Halt.onto (base : List Float) (halt : Halt) : Halt :=
  { halt with stack := halt.stack ++ base }

namespace Machine

variable {stack stack' base : List Float} {halt : Halt} {operation : Operation} {token : Token}
  {tokens : List Token}

/-! ### On a base -/

/-- What comes of a stack, with a base below it. -/
def onto (base : List Float) : Except Halt (List Float) → Except Halt (List Float)
  | .ok stack => .ok (stack ++ base)
  | .error halt => .error (halt.onto base)

/-- The machine has stopped for a lack of operands. -/
def LacksOperands (outcome : Except Halt (List Float)) : Prop :=
  ∃ halt, outcome = .error halt ∧ halt.fault.kind = .stackUnderflow

theorem not_lacksOperands_ok : ¬ LacksOperands (.ok stack) := by
  rintro ⟨halt, hhalt, -⟩
  cases hhalt

theorem lacksOperands_error_iff :
    LacksOperands (.error halt) ↔ halt.fault.kind = .stackUnderflow := by
  constructor
  · rintro ⟨halt', hhalt, hkind⟩
    rwa [Except.error.inj hhalt]
  · exact fun hkind => ⟨halt, rfl, hkind⟩

theorem apply_onto (h : ¬ LacksOperands (apply stack operation)) :
    apply (stack ++ base) operation = onto base (apply stack operation) := by
  cases operation with
  | unary f =>
    rcases stack with - | ⟨x, rest⟩
    · exact absurd ⟨_, rfl, rfl⟩ h
    · cases hx : f x <;> simp only [List.cons_append, apply, hx] <;> rfl
  | binary f =>
    rcases stack with - | ⟨y, - | ⟨x, rest⟩⟩
    · exact absurd ⟨_, rfl, rfl⟩ h
    · exact absurd ⟨_, rfl, rfl⟩ h
    · cases hxy : f x y <;> simp only [List.cons_append, apply, hxy] <;> rfl

/-- **One token**: unless it lacks operands, it does the same on a base. -/
theorem feed_onto (h : ¬ LacksOperands (feed stack token)) :
    feed (stack ++ base) token = onto base (feed stack token) := by
  cases token with
  | number v => rfl
  | constant name =>
    rw [feed, feed]
    cases Constant.ofName? name <;> rfl
  | operator op => exact apply_onto h
  | function name =>
    rw [feed] at h
    rw [feed, feed]
    cases hname : Builtin.ofName? name with
    | none => rfl
    | some f =>
      rw [hname] at h
      exact apply_onto h
  | leftParen => rfl
  | rightParen => rfl
  | comma => rfl

theorem feed_onto_of_ok (h : feed stack token = .ok stack') :
    feed (stack ++ base) token = .ok (stack' ++ base) := by
  rw [feed_onto (h ▸ not_lacksOperands_ok), h]
  rfl

theorem feed_onto_of_error (h : feed stack token = .error halt)
    (hkind : halt.fault.kind ≠ .stackUnderflow) :
    feed (stack ++ base) token = .error (halt.onto base) := by
  rw [feed_onto (h ▸ mt lacksOperands_error_iff.mp hkind), h]
  rfl

theorem feedAll_onto (h : ¬ LacksOperands (feedAll stack tokens)) :
    feedAll (stack ++ base) tokens = onto base (feedAll stack tokens) := by
  -- The stack is generalised: each token leaves another one to those behind it.
  induction tokens generalizing stack with
  | nil => rfl
  | cons token tokens ih =>
    rw [feedAll] at h
    rw [feedAll, feedAll]
    cases hfeed : feed stack token with
    | ok stack' =>
      rw [hfeed] at h
      rw [feed_onto_of_ok hfeed]
      exact ih h
    | error halt =>
      rw [hfeed] at h
      rw [feed_onto_of_error hfeed (mt lacksOperands_error_iff.mpr h)]
      rfl

theorem feedAll_onto_of_ok (h : feedAll stack tokens = .ok stack') :
    feedAll (stack ++ base) tokens = .ok (stack' ++ base) := by
  rw [feedAll_onto (h ▸ not_lacksOperands_ok), h]
  rfl

/-! ### What a fault leaves -/

/-- A token fails on operands that it has taken off the stack, and would fail on these alone. -/
def FailsOnOperands (stack : List Float) (token : Token) (halt : Halt) : Prop :=
  ∃ operands, operands.length = token.arity ∧ stack = operands ++ halt.stack ∧
    feed operands token = .error ⟨halt.fault, []⟩

theorem exists_operands_of_apply (h : apply stack operation = .error halt)
    (henough : operation.arity ≤ stack.length) :
    ∃ operands, operands.length = operation.arity ∧ stack = operands ++ halt.stack ∧
      apply operands operation = .error ⟨halt.fault, []⟩ := by
  cases operation with
  | unary f =>
    rcases apply_unary_eq_error_iff.mp h with ⟨rfl, -⟩ | ⟨x, rest, fault, rfl, hx, rfl⟩
    · exact absurd henough (Nat.not_succ_le_zero 0)
    · refine ⟨[x], rfl, rfl, ?_⟩
      exact apply_unary_eq_error_iff.mpr (.inr ⟨x, [], fault, rfl, hx, rfl⟩)
  | binary f =>
    rcases apply_binary_eq_error_iff.mp h with ⟨hshort, -⟩ | ⟨x, y, rest, fault, rfl, hxy, rfl⟩
    · exact absurd henough (Nat.not_le.mpr hshort)
    · refine ⟨[y, x], rfl, rfl, ?_⟩
      exact apply_binary_eq_error_iff.mpr (.inr ⟨x, y, [], fault, rfl, hxy, rfl⟩)

theorem feed_of_not_known (hnot : ¬ (token.isWord = true ∧ token.IsKnown))
    (h : feed stack token = .error halt) :
    halt.fault.kind ∉ stopKinds ∧ halt.stack = stack := by
  cases token with
  | number v => exact absurd ⟨rfl, trivial⟩ hnot
  | operator op => exact absurd ⟨rfl, trivial⟩ hnot
  | constant name =>
    rw [feed] at h
    split at h
    · cases h
    · cases h
      exact ⟨by simp [stopKinds, valueKinds, Fault.kind], rfl⟩
  | function name =>
    rw [feed] at h
    split at h
    · next f hname => exact absurd ⟨rfl, f, Builtin.ofName?_eq_some_iff.mp hname⟩ hnot
    · cases h
      exact ⟨by simp [stopKinds, valueKinds, Fault.kind], rfl⟩
  | leftParen | rightParen | comma =>
    cases h
    exact ⟨by simp [stopKinds, valueKinds, Fault.kind], rfl⟩

/-- **What a token leaves that stops the machine**: all of the stack if it lacks operands, what lies
below the operands if it fails on their values, and all of the stack if it is not known. -/
theorem feed_eq_error_cases (h : feed stack token = .error halt) :
    (stack.length < token.arity ∧ halt = ⟨.underflow token.arity, stack⟩) ∨
      (halt.fault.kind ∈ valueKinds ∧ FailsOnOperands stack token halt) ∨
        (halt.fault.kind ∉ stopKinds ∧ halt.stack = stack) := by
  by_cases hknown : token.isWord = true ∧ token.IsKnown
  · rcases feed_word hknown.1 hknown.2 with ⟨-, v, hfeed⟩ | ⟨operation, harity, hop, hfeed⟩
    · rw [hfeed] at h
      cases h
    · rw [hfeed] at h
      rw [FailsOnOperands, ← harity]
      rcases apply_eq_error hop h with hshort | ⟨henough, hkind⟩
      · exact .inl hshort
      · refine .inr (.inl ⟨hkind, ?_⟩)
        simp only [hfeed]
        exact exists_operands_of_apply h henough
  · exact .inr (.inr (feed_of_not_known hknown h))

/-! ### Both -/

/-- The machine stops at a token with a halt, behind tokens that it has run. -/
def StopsAt (stack : List Float) (before : List Token) (token : Token) (halt : Halt) : Prop :=
  ∃ reached, feedAll stack before = .ok reached ∧ feed reached token = .error halt

/-- A token that stops the machine, not for a lack of operands, stops it on a base too. -/
theorem StopsAt.onto {before : List Token} (h : StopsAt stack before token halt)
    (hkind : halt.fault.kind ≠ .stackUnderflow) (base : List Float) :
    StopsAt (stack ++ base) before token (halt.onto base) := by
  obtain ⟨reached, hbefore, htoken⟩ := h
  exact ⟨reached ++ base, feedAll_onto_of_ok hbefore, feed_onto_of_error htoken hkind⟩

theorem exists_stopsAt_iff : feedAll stack tokens = .error halt ↔
    ∃ before token after, tokens = before ++ token :: after ∧ StopsAt stack before token halt := by
  rw [feedAll_eq_error_iff]
  constructor
  · rintro ⟨before, token, after, reached, heq, hbefore, htoken⟩
    exact ⟨before, token, after, heq, reached, hbefore, htoken⟩
  · rintro ⟨before, token, after, heq, reached, hbefore, htoken⟩
    exact ⟨before, token, after, reached, heq, hbefore, htoken⟩

/-- **The machine sees only the operands that it takes.** Let a stack lie on a base. Tokens that run
on the stack alone run on both, and the base is below what they leave. If a token stops the machine
on the stack alone, but not for a lack of operands, the same token stops it on both, with the same
fault, and the base is below what is left. And on any stack, a token that lacks operands leaves all
of it, while one that fails on the values of its operands has taken as many as it needs from the top
and nothing else, and fails on these alone. -/
theorem sees_operands_only (base stack : List Float) (tokens : List Token) :
    (∀ stack', feedAll stack tokens = .ok stack' →
      feedAll (stack ++ base) tokens = .ok (stack' ++ base)) ∧
    (∀ halt, feedAll stack tokens = .error halt → halt.fault.kind ≠ .stackUnderflow →
      ∃ before token after, tokens = before ++ token :: after ∧
        StopsAt stack before token halt ∧ StopsAt (stack ++ base) before token (halt.onto base) ∧
        feedAll (stack ++ base) tokens = .error (halt.onto base)) ∧
    (∀ token halt, feed stack token = .error halt →
      (halt.fault.kind = .stackUnderflow → stack.length < token.arity ∧ halt.stack = stack) ∧
      (halt.fault.kind ∈ [.divideByZero, .domainError] → ∃ operands,
        operands.length = token.arity ∧ stack = operands ++ halt.stack ∧
          feed operands token = .error ⟨halt.fault, []⟩)) := by
  refine ⟨fun stack' => feedAll_onto_of_ok, ?_, ?_⟩
  · intro halt h hkind
    obtain ⟨before, token, after, rfl, hstops⟩ := exists_stopsAt_iff.mp h
    have honto := hstops.onto hkind base
    exact ⟨before, token, after, rfl, hstops, honto,
      exists_stopsAt_iff.mpr ⟨before, token, after, rfl, honto⟩⟩
  · intro token halt h
    rcases feed_eq_error_cases h with ⟨hshort, rfl⟩ | ⟨hkind, hfails⟩ | ⟨hkind, hstack⟩
    · refine ⟨fun _ => ⟨hshort, rfl⟩, fun hvalue => ?_⟩
      change FaultKind.stackUnderflow ∈ valueKinds at hvalue
      exact absurd hvalue (by decide)
    · refine ⟨fun hlack => ?_, fun _ => hfails⟩
      rw [hlack] at hkind
      exact absurd hkind (by decide)
    · refine ⟨fun hlack => ?_, fun hvalue => ?_⟩
      · exact absurd (hlack ▸ List.mem_cons_self) hkind
      · exact absurd (List.mem_cons_of_mem _ hvalue) hkind

/-- On the base 7, the product of 2 and 3 lies above the 7; the division of 1 by 0 stops the machine
there as it does without, and 7 is left; a plus with one operand leaves it, and the division of 1 by
0 above a 5 leaves the 5. -/
theorem sees_operands_only_quotient :
    (feedAll [2] [.number 3, .operator .multiply] = .ok [2 * 3] ∧
      feedAll ([2] ++ [7]) [.number 3, .operator .multiply] = .ok ([2 * 3] ++ [7])) ∧
    (feedAll [1] [.number 0, .operator .divide, .operator .add] = .error ⟨.divisionByZero, []⟩ ∧
      (⟨.divisionByZero, []⟩ : Halt).fault.kind ≠ .stackUnderflow ∧
      feedAll ([1] ++ [7]) [.number 0, .operator .divide, .operator .add] =
        .error ⟨.divisionByZero, [7]⟩) ∧
    (feed [5] (.operator .add) = .error ⟨.underflow 2, [5]⟩ ∧
      (⟨.underflow 2, [5]⟩ : Halt).fault.kind = .stackUnderflow ∧
      (⟨.underflow 2, [5]⟩ : Halt).stack = [5]) ∧
    (feed [0, 1, 5] (.operator .divide) = .error ⟨.divisionByZero, [5]⟩ ∧
      (⟨.divisionByZero, [5]⟩ : Halt).fault.kind ∈ [.divideByZero, .domainError] ∧
      ∃ operands : List Float, operands.length = 2 ∧ [0, 1, 5] = operands ++ [5]) := by
  have hproduct : feedAll [2] [.number 3, .operator .multiply] = .ok [2 * 3] := rfl
  have hquotient : feedAll [1] [.number 0, .operator .divide, .operator .add] =
      .error ⟨.divisionByZero, []⟩ := by decide +kernel
  have hshort : feed [5] (.operator .add) = .error ⟨.underflow 2, [5]⟩ := rfl
  have hvalues : feed [0, 1, 5] (.operator .divide) = .error ⟨.divisionByZero, [5]⟩ := by
    decide +kernel
  obtain ⟨hruns, -, -⟩ := sees_operands_only [7] [2] [.number 3, .operator .multiply]
  obtain ⟨-, hstops, -⟩ :=
    sees_operands_only [7] [1] [.number 0, .operator .divide, .operator .add]
  obtain ⟨-, -, hleft⟩ := sees_operands_only [] [5] []
  obtain ⟨-, -, htaken⟩ := sees_operands_only [] [0, 1, 5] []
  obtain ⟨-, -, -, -, -, -, honto⟩ := hstops _ hquotient (by decide)
  obtain ⟨operands, hlength, hoperands, -⟩ := (htaken _ _ hvalues).2 (by decide)
  exact ⟨⟨hproduct, hruns _ hproduct⟩, ⟨hquotient, by decide, honto⟩,
    ⟨hshort, rfl, ((hleft _ _ hshort).1 rfl).2⟩,
    hvalues, by decide, operands, hlength, hoperands⟩

end Machine

end DeskCalculator
