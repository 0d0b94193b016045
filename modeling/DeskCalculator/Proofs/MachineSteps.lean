import DeskCalculator.Machine
import Mathlib.Tactic.Common

/-!
# What one token does to the machine

An operation on the stack either has its operands at the top and replaces them by its value
(`apply_unary_eq_ok_iff`, `apply_binary_eq_ok_iff`), or fails on them and has removed them, or lacks
operands and leaves the stack (`apply_unary_eq_error_iff`, `apply_binary_eq_error_iff`). So on words
whose names are known the machine stops for a lack of operands, a division by zero or a domain left,
and for nothing else (`kind_of_feedAll`). A run that gets past all words ends with one finite value
or has a fault of its own (`run_eq_ok_iff`, `run_eq_error_iff`, `result_eq_error_iff`).
-/

namespace DeskCalculator

/-- Whether a token has a part in the value. The others, the punctuation, only group. -/
def Token.isWord : Token → Bool
  | leftParen | rightParen | comma => false
  | _ => true

/-- The name of a token, if it has one, is that of a function or a constant. -/
def Token.IsKnown : Token → Prop
  | function name => ∃ f : Builtin, f.name = name
  | constant name => ∃ k : Constant, k.name = name
  | _ => True

namespace Machine

variable {stack stack' : List Float} {halt : Halt}

/-! ### Operations -/

/-- **An operation with one operand** takes it from the top of the stack. -/
theorem apply_unary_eq_ok_iff {f : Float → Except Fault Float} :
    apply stack (.unary f) = .ok stack' ↔
      ∃ x rest v, stack = x :: rest ∧ f x = .ok v ∧ stack' = v :: rest := by
  cases stack with
  | nil => simp [apply]
  | cons x rest => cases hx : f x <;> simp [apply, hx, eq_comm]

/-- It leaves a stack without an operand, and has taken an operand on which it fails. -/
theorem apply_unary_eq_error_iff {f : Float → Except Fault Float} :
    apply stack (.unary f) = .error halt ↔
      stack = [] ∧ halt = ⟨.underflow 1, stack⟩ ∨
        ∃ x rest fault, stack = x :: rest ∧ f x = .error fault ∧ halt = ⟨fault, rest⟩ := by
  cases stack with
  | nil => simp [apply, Operation.arity, eq_comm]
  | cons x rest => cases hx : f x <;> simp [apply, hx, eq_comm]

/-- **An operation with two operands** takes them from the top of the stack, the right one first. -/
theorem apply_binary_eq_ok_iff {f : Float → Float → Except Fault Float} :
    apply stack (.binary f) = .ok stack' ↔
      ∃ x y rest v, stack = y :: x :: rest ∧ f x y = .ok v ∧ stack' = v :: rest := by
  rcases stack with - | ⟨y, - | ⟨x, rest⟩⟩
  · simp [apply]
  · simp [apply]
  · cases hxy : f x y <;> simp [apply, hxy, eq_comm]

/-- It leaves a stack with less than two operands, and has taken operands on which it fails. -/
theorem apply_binary_eq_error_iff {f : Float → Float → Except Fault Float} :
    apply stack (.binary f) = .error halt ↔
      stack.length < 2 ∧ halt = ⟨.underflow 2, stack⟩ ∨
        ∃ x y rest fault, stack = y :: x :: rest ∧ f x y = .error fault ∧
          halt = ⟨fault, rest⟩ := by
  rcases stack with - | ⟨y, - | ⟨x, rest⟩⟩
  · simp [apply, Operation.arity, eq_comm]
  · simp [apply, Operation.arity, eq_comm]
  · have hlength : ¬ rest.length + 1 + 1 < 2 := by omega
    cases hxy : f x y <;> simp [apply, hxy, hlength, eq_comm]

/-- The kinds of the faults of an operation on its operands. -/
def valueKinds : List FaultKind :=
  [.divideByZero, .domainError]

/-- Whatever its operands, an operation that fails has divided by zero or left its domain. -/
def FailsByValue : Operation → Prop
  | .unary f => ∀ x fault, f x = .error fault → fault.kind ∈ valueKinds
  | .binary f => ∀ x y fault, f x y = .error fault → fault.kind ∈ valueKinds

theorem failsByValue_operator (op : Operator) : FailsByValue op.operation := by
  cases op with
  | add => exact fun _ _ _ h => nomatch h
  | subtract => exact fun _ _ _ h => nomatch h
  | multiply => exact fun _ _ _ h => nomatch h
  | percent => exact fun _ _ h => nomatch h
  | negate => exact fun _ _ h => nomatch h
  | divide =>
    intro x y fault h
    unfold quotient at h
    split at h
    · cases h
      decide
    · cases h

theorem failsByValue_ofAngle (f : Builtin) (g : Float → Float) :
    FailsByValue (.unary (ofAngle f g)) := by
  intro x fault h
  unfold ofAngle at h
  split at h
  · cases h
    exact List.mem_cons_of_mem _ List.mem_cons_self
  · cases h

theorem failsByValue_builtin (f : Builtin) : FailsByValue f.operation := by
  cases f with
  | sin => exact failsByValue_ofAngle _ _
  | cos => exact failsByValue_ofAngle _ _
  | tan => exact failsByValue_ofAngle _ _
  | log =>
    intro x fault h
    unfold logarithm at h
    split at h
    · cases h
      decide
    · cases h
  | sqrt =>
    intro x fault h
    unfold squareRoot at h
    split at h
    · cases h
      decide
    · cases h
  | pow =>
    intro x y fault h
    simp only [power] at h
    split at h
    · cases h
      decide
    · cases h

/-! ### Faults -/

/-- The kinds of the faults that stop the machine on a token. -/
def stopKinds : List FaultKind :=
  .stackUnderflow :: valueKinds

theorem kind_of_apply {operation : Operation} (hop : FailsByValue operation)
    (h : apply stack operation = .error halt) : halt.fault.kind ∈ stopKinds := by
  cases operation with
  | unary f =>
    rcases apply_unary_eq_error_iff.mp h with ⟨-, rfl⟩ | ⟨x, rest, fault, -, hx, rfl⟩
    · exact List.mem_cons_self
    · exact List.mem_cons_of_mem _ (hop x fault hx)
  | binary f =>
    rcases apply_binary_eq_error_iff.mp h with ⟨-, rfl⟩ | ⟨x, y, rest, fault, -, hxy, rfl⟩
    · exact List.mem_cons_self
    · exact List.mem_cons_of_mem _ (hop x y fault hxy)

theorem kind_of_feed {token : Token} (hword : token.isWord = true) (hknown : token.IsKnown)
    (h : feed stack token = .error halt) : halt.fault.kind ∈ stopKinds := by
  cases token with
  | number v => cases h
  | constant name =>
    obtain ⟨k, rfl⟩ := hknown
    rw [feed, Constant.ofName?_eq_some_iff.mpr rfl] at h
    cases h
  | operator op => exact kind_of_apply (failsByValue_operator op) h
  | function name =>
    obtain ⟨f, rfl⟩ := hknown
    rw [feed, Builtin.ofName?_eq_some_iff.mpr rfl] at h
    exact kind_of_apply (failsByValue_builtin f) h
  | leftParen => cases hword
  | rightParen => cases hword
  | comma => cases hword

theorem kind_of_feedAll {tokens : List Token}
    (hwords : ∀ token ∈ tokens, token.isWord = true ∧ token.IsKnown)
    (h : feedAll stack tokens = .error halt) : halt.fault.kind ∈ stopKinds := by
  induction tokens generalizing stack with
  | nil => cases h
  | cons token tokens ih =>
    obtain ⟨hword, hknown⟩ := hwords token List.mem_cons_self
    rw [feedAll] at h
    split at h
    · exact ih (fun t ht => hwords t (List.mem_cons_of_mem _ ht)) h
    · next hfeed =>
      cases h
      exact kind_of_feed hword hknown hfeed

/-! ### Runs -/

theorem result_eq_ok_iff {v : Float} : result stack = .ok v ↔ stack = [v] ∧ v.isFinite = true := by
  unfold result
  constructor
  · intro h
    split at h
    · split at h
      · next hfinite =>
        cases h
        exact ⟨rfl, hfinite⟩
      · cases h
    · cases h
  · rintro ⟨rfl, hfinite⟩
    exact if_pos hfinite

theorem result_eq_error_iff : result stack = .error halt ↔
    stack.length ≠ 1 ∧ halt = ⟨.valueCount stack.length, stack⟩ ∨
      ∃ v, stack = [v] ∧ v.isFinite = false ∧ halt = ⟨.notFinite, []⟩ := by
  unfold result
  constructor
  · intro h
    split at h
    · next v =>
      split at h
      · cases h
      · next hfinite =>
        cases h
        exact .inr ⟨v, rfl, Bool.eq_false_iff.mpr hfinite, rfl⟩
    · next hmany =>
      cases h
      refine .inl ⟨fun hlength => ?_, rfl⟩
      obtain ⟨v, hv⟩ := List.length_eq_one_iff.mp hlength
      exact hmany v hv
  · rintro (⟨hlength, rfl⟩ | ⟨v, rfl, hfinite, rfl⟩)
    · split
      · exact absurd rfl hlength
      · rfl
    · exact if_neg (Bool.eq_false_iff.mp hfinite)

/-- **A run has the one value that is left**, which is finite. -/
theorem run_eq_ok_iff {tokens : List Token} {v : Float} :
    run tokens = .ok v ↔ feedAll [] tokens = .ok [v] ∧ v.isFinite = true := by
  unfold run
  cases feedAll [] tokens with
  | error halt => simp
  | ok stack => simp [result_eq_ok_iff]

theorem run_eq_error_iff {tokens : List Token} :
    run tokens = .error halt ↔ feedAll [] tokens = .error halt ∨
      ∃ stack, feedAll [] tokens = .ok stack ∧ result stack = .error halt := by
  unfold run
  cases feedAll [] tokens with
  | error halt' => simp
  | ok stack => simp

end Machine

end DeskCalculator
