import DeskCalculator.Proofs.OperandCount

/-!
# Reordering loses and invents nothing

Operators, functions and parentheses wait on a stack; numbers and constants never do, they are
released at once (`operands_of_shift`). So they come out in the order in which they were read
(`operands_of_ofTokens`), among all the words and nothing else (`perm_of_ofTokens`). Each word makes
the same number of values wherever it stands, so what a text can come to is decided by how many
words of each kind it has: a text has a value only if there is one operand more than there are
operations that take two (`words_kept`).
-/

namespace DeskCalculator

namespace Token

/-- A number or a constant. -/
def isOperand : Token → Bool
  | number _ | constant _ => true
  | _ => false

/-- An operator between two operands, or the power. -/
def takesTwo : Token → Bool
  | operator .negate | operator .percent => false
  | operator _ => true
  | function name => name == Builtin.pow.name
  | _ => false

end Token

namespace ReversePolish

variable {stack stack' : List Pending} {tokens released ordered : List Token} {token : Token}

/-! ### The order of operands -/

theorem filter_isOperand_pending (stack : List Pending) :
    (stack.map Pending.token).filter Token.isOperand = [] := by
  refine List.filter_eq_nil_iff.mpr fun token htoken => ?_
  obtain ⟨pending, -, rfl⟩ := List.mem_map.mp htoken
  cases pending <;> exact Bool.false_ne_true

/-- **One token**: of operands, it releases itself only. -/
theorem operands_of_shift (h : shift stack token = .ok (released, stack')) :
    released.filter Token.isOperand = [token].filter Token.isOperand := by
  have hgroup : (group stack).filter Token.isOperand = [] := filter_isOperand_pending _
  cases token with
  | number v =>
    cases h
    rfl
  | constant name =>
    cases h
    rfl
  | function name =>
    cases h
    rfl
  | leftParen =>
    cases h
    rfl
  | operator op =>
    cases h
    exact filter_isOperand_pending _
  | comma =>
    simp only [shift] at h
    split at h <;> cases h
    exact hgroup
  | rightParen =>
    simp only [shift] at h
    split at h
    · cases h
    · next name rest henclosing =>
      cases h
      rw [List.filter_append, hgroup]
      rfl
    · cases h
      exact hgroup

theorem operands_of_reorder (h : reorder stack tokens = .ok ordered) :
    ordered.filter Token.isOperand = tokens.filter Token.isOperand := by
  induction tokens generalizing stack ordered with
  | nil =>
    unfold reorder finish at h
    split at h <;> cases h
    exact filter_isOperand_pending stack
  | cons token tokens ih =>
    unfold reorder at h
    split at h
    · cases h
    next released stack' hshift =>
    split at h
    · cases h
    next later hlater =>
    cases h
    rw [List.filter_append, operands_of_shift hshift, ih hlater, ← List.filter_append]
    rfl

/-- **Numbers and constants keep their order.** -/
theorem operands_of_ofTokens (h : ofTokens tokens = .ok ordered) :
    ordered.filter Token.isOperand = tokens.filter Token.isOperand :=
  operands_of_reorder h

theorem isWord_of_ofTokens (h : ofTokens tokens = .ok ordered) :
    ∀ token ∈ ordered, token.isWord = true := fun _ htoken =>
  (List.mem_filter.mp ((perm_of_ofTokens h).mem_iff.mp htoken)).2

end ReversePolish

/-! ### The number of values -/

open ReversePolish

theorem gain_eq_ite (token : Token) :
    token.gain = (if token.isOperand then 1 else 0) - (if token.takesTwo then 1 else 0) := by
  cases token with
  | number v => rfl
  | constant name => rfl
  | operator op => cases op <;> rfl
  | function name =>
    by_cases hpow : (name == Builtin.pow.name) = true
    · simp [gain_function, Token.isOperand, Token.takesTwo, hpow]
    · simp [gain_function, Token.isOperand, Token.takesTwo, hpow]
  | leftParen => rfl
  | rightParen => rfl
  | comma => rfl

/-- **The values that tokens leave**: one for each operand, less one for each operation that takes
two. -/
theorem gains_eq_countP (tokens : List Token) :
    gains tokens = tokens.countP Token.isOperand - tokens.countP Token.takesTwo := by
  induction tokens with
  | nil => rfl
  | cons token tokens ih =>
    have hcons : gains (token :: tokens) = token.gain + gains tokens := List.sum_cons
    rw [hcons, ih, gain_eq_ite, List.countP_cons, List.countP_cons]
    split <;> split <;> push_cast <;> omega

theorem gains_of_evaluate {text shown : Text} {v : Float}
    (h : evaluate text = .success v shown) : ∃ tokens, Reads text tokens ∧ gains tokens = 1 := by
  obtain ⟨ordered, horders, hrun⟩ := exists_orders_of_evaluate h
  have hfeed := (Machine.run_eq_ok_iff.mp hrun).1
  have hcount := Machine.length_of_feedAll horders.words hfeed
  obtain ⟨tokens, hreads, hordered⟩ := horders
  have hkept := gains_of_ofTokens hordered
  refine ⟨tokens, hreads, ?_⟩
  simp only [List.length_nil, List.length_singleton] at hcount
  omega

/-- **Reordering loses and invents nothing.** What comes out of it holds no punctuation; it is the
words that went in, and the numbers and constants among them are in the same order. So whatever the
arrangement of its words, a text has a value only if its numbers and constants are one more than its
binary operators and powers. -/
theorem words_kept :
    (∀ tokens ordered, ofTokens tokens = .ok ordered →
      (∀ token ∈ ordered, token.isWord = true) ∧
      ordered.Perm (tokens.filter Token.isWord) ∧
      ordered.filter Token.isOperand = tokens.filter Token.isOperand) ∧
    ∀ text v shown, evaluate text = .success v shown → ∃ tokens,
      Token.tokenize text = .ok tokens ∧
        tokens.countP Token.isOperand = 1 + tokens.countP Token.takesTwo := by
  refine ⟨fun tokens ordered h => ?_, fun text v shown h => ?_⟩
  · exact ⟨isWord_of_ofTokens h, perm_of_ofTokens h, operands_of_ofTokens h⟩
  · obtain ⟨tokens, ⟨-, htokens⟩, hone⟩ := gains_of_evaluate h
    have hcount := gains_eq_countP tokens
    exact ⟨tokens, htokens, by omega⟩

/-- The tokens of `2 + 3 * pi`. -/
def circumference : List Token :=
  [.number 2, .operator .add, .number 3, .operator .multiply, .constant Constant.pi.name]

/-- The tokens of `2 + 3 * pi` in reverse Polish order, and the count of `2 3 +`, which is no infix
expression. -/
theorem words_kept_circumference :
    (ofTokens circumference = .ok [.number 2, .number 3, .constant Constant.pi.name,
        .operator .multiply, .operator .add] ∧
      [.number 2, .number 3, .constant Constant.pi.name, .operator .multiply,
        .operator .add].filter Token.isOperand = circumference.filter Token.isOperand) ∧
    evaluate "2 3 +".toList = .success 5 ['5'] ∧ ∃ tokens,
      Token.tokenize "2 3 +".toList = .ok tokens ∧
        tokens.countP Token.isOperand = 1 + tokens.countP Token.takesTwo := by
  have hordered : ofTokens circumference = .ok [.number 2, .number 3,
      .constant Constant.pi.name, .operator .multiply, .operator .add] := rfl
  have hvalue : evaluate "2 3 +".toList = .success 5 ['5'] := by decide +kernel
  obtain ⟨hkept, hcounted⟩ := words_kept
  exact ⟨⟨hordered, (hkept _ _ hordered).2.2⟩, hvalue, hcounted _ _ _ hvalue⟩

end DeskCalculator
