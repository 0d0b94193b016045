import DeskCalculator.Proofs.Precedence

/-!
# The machine computes the value of the tree

Run on the post-order of an expression, in front of any other tokens and on any stack, the machine
either goes on with the value of the expression on top of the stack or stops with the fault of the
first node that fails (`computes_postOrder`). With the reordering of writings this settles what an
infix writing is worth, whatever parentheses it has (`ofTokens_and_run_of_writes`).
-/

namespace DeskCalculator

namespace Machine

/-- A run without the stack on which it stopped. -/
def outcome {α : Type} (run : Except Halt α) : Except Fault α :=
  run.mapError Halt.fault

theorem outcome_feedAll_cons (stack : List Float) (token : Token) (tokens : List Token) :
    outcome (feedAll stack (token :: tokens)) =
      (outcome (feed stack token)).bind fun stack' => outcome (feedAll stack' tokens) := by
  rw [feedAll]
  cases feed stack token <;> rfl

/-- **Tokens that compute a result.** In front of any other tokens and on any stack, either the
number is pushed and the machine goes on, or it stops with the fault. -/
def Computes (tokens : List Token) (result : Except Fault Float) : Prop :=
  ∀ (stack : List Float) (rest : List Token), outcome (feedAll stack (tokens ++ rest)) =
    result.bind fun v => outcome (feedAll (v :: stack) rest)

section

variable {token : Token} {tokens tokens' : List Token} {result result' : Except Fault Float}

theorem computes_number (v : Float) : Computes [.number v] (.ok v) := fun _ _ => rfl

theorem computes_singleton {v : Float}
    (hfeed : ∀ stack, outcome (feed stack token) = .ok (v :: stack)) :
    Computes [token] (.ok v) := by
  intro stack rest
  rw [List.singleton_append, outcome_feedAll_cons, hfeed]
  rfl

theorem Computes.unary {f : Float → Except Fault Float} (h : Computes tokens result)
    (hfeed : ∀ x stack, outcome (feed (x :: stack) token) = (f x).map (· :: stack)) :
    Computes (tokens ++ [token]) (result.bind f) := by
  intro stack rest
  rw [List.append_assoc, h]
  cases result with
  | error fault => rfl
  | ok x =>
    simp only [Except.bind]
    rw [List.singleton_append, outcome_feedAll_cons, hfeed]
    cases f x <;> rfl

/-- A token behind its two operands, of which the left one decides if both fail. -/
theorem Computes.binary {f : Float → Float → Except Fault Float} (h : Computes tokens result)
    (h' : Computes tokens' result')
    (hfeed : ∀ x y stack, outcome (feed (y :: x :: stack) token) = (f x y).map (· :: stack)) :
    Computes (tokens ++ tokens' ++ [token]) (result.bind fun x => result'.bind fun y => f x y) := by
  intro stack rest
  rw [List.append_assoc, List.append_assoc, h]
  cases result with
  | error fault => rfl
  | ok x =>
    simp only [Except.bind]
    rw [h']
    cases result' with
    | error fault => rfl
    | ok y =>
      simp only [Except.bind]
      rw [List.singleton_append, outcome_feedAll_cons, hfeed]
      cases f x y <;> rfl

end

/-! ### Single operations -/

theorem outcome_feed_negate (x : Float) (stack : List Float) :
    outcome (feed (x :: stack) (.operator .negate)) = .ok (-x :: stack) := rfl

theorem outcome_feed_percent (x : Float) (stack : List Float) :
    outcome (feed (x :: stack) (.operator .percent)) = .ok (x / 100 :: stack) := rfl

theorem outcome_feed_binary (op : BinaryOperator) (x y : Float) (stack : List Float) :
    outcome (feed (y :: x :: stack) (.operator op.operator)) =
      (op.apply x y).map (· :: stack) := by
  cases op with
  | add => rfl
  | subtract => rfl
  | multiply => rfl
  | divide =>
    simp only [feed, BinaryOperator.operator, Operator.operation, apply, BinaryOperator.apply]
    cases quotient x y <;> rfl

theorem outcome_feed_constant (k : Constant) (stack : List Float) :
    outcome (feed stack (.constant k.name)) = .ok (k.value :: stack) := by
  rw [feed, Constant.ofName?_eq_some_iff.mpr rfl]
  rfl

theorem feed_function (f : Builtin) (stack : List Float) :
    feed stack (.function f.name) = apply stack f.operation := by
  rw [feed, Builtin.ofName?_eq_some_iff.mpr rfl]

theorem outcome_feed_call (f : UnaryFunction) (x : Float) (stack : List Float) :
    outcome (feed (x :: stack) (.function f.builtin.name)) = (f.apply x).map (· :: stack) := by
  have happly : ∀ g : Float → Except Fault Float,
      outcome (apply (x :: stack) (.unary g)) = (g x).map (· :: stack) := by
    intro g
    simp only [apply]
    cases g x <;> rfl
  rw [feed_function]
  cases f <;> exact happly _

theorem outcome_feed_power (x y : Float) (stack : List Float) :
    outcome (feed (y :: x :: stack) (.function Builtin.pow.name)) =
      (power x y).map (· :: stack) := by
  rw [feed_function]
  simp only [Builtin.operation, apply]
  cases power x y <;> rfl

/-! ### Whole expressions -/

theorem map_eq_bind_ok (result : Except Fault Float) (f : Float → Float) :
    result.map f = result.bind fun x => .ok (f x) := by
  cases result <;> rfl

/-- **The post-order computes the value.** -/
theorem computes_postOrder (e : Expression) : Computes e.postOrder e.eval := by
  induction e with
  | number v => exact computes_number v
  | constant k => exact computes_singleton (outcome_feed_constant k)
  | negate e ih =>
    rw [Expression.eval, map_eq_bind_ok]
    exact ih.unary outcome_feed_negate
  | percent e ih =>
    rw [Expression.eval, map_eq_bind_ok]
    exact ih.unary outcome_feed_percent
  | binary op l r ihl ihr => exact ihl.binary ihr (outcome_feed_binary op)
  | call f a ih => exact ih.unary (outcome_feed_call f)
  | power b e ihb ihe => exact ihb.binary ihe outcome_feed_power

theorem outcome_run (tokens : List Token) :
    outcome (run tokens) =
      (outcome (feedAll [] tokens)).bind fun stack => outcome (result stack) := by
  rw [run]
  cases feedAll [] tokens <;> rfl

/-- A run on the post-order ends with the value of the expression or its fault. -/
theorem outcome_run_postOrder (e : Expression) : outcome (run e.postOrder) = e.value := by
  have h := computes_postOrder e [] []
  rw [List.append_nil] at h
  rw [outcome_run, h, Expression.value]
  cases e.eval with
  | error fault => rfl
  | ok v =>
    show outcome (result [v]) = _
    simp only [result, Except.bind]
    split <;> rfl

end Machine

/-! ### What an infix writing is worth -/

/-- **An infix writing is reordered to the post-order of its expression, and the machine computes
from it the value of the expression**: the same number, or the fault of the first node that
fails. -/
theorem ofTokens_and_run_of_writes {e : Expression} {tokens : List Token}
    (h : e.Writes 0 tokens) :
    ReversePolish.ofTokens tokens = .ok e.postOrder ∧
      (Machine.run e.postOrder).mapError Halt.fault = e.value :=
  ⟨ReversePolish.ofTokens_of_writes h, Machine.outcome_run_postOrder e⟩

/-- The tree of `-(1 + 2) * 3 % - pow(4, (5)) / (6 - 6)`. -/
def Expression.quotientByZero : Expression :=
  .binary .subtract
    (.binary .multiply (.negate (.binary .add (.number 1) (.number 2))) (.percent (.number 3)))
    (.binary .divide (.power (.number 4) (.number 5)) (.binary .subtract (.number 6) (.number 6)))

/-- The divisor is computed after the power, and fails before the difference. -/
theorem ofTokens_and_run_of_quotientByZero :
    Expression.quotientByZero.Writes 0
      [.operator .negate, .leftParen, .number 1, .operator .add, .number 2, .rightParen,
        .operator .multiply, .number 3, .operator .percent, .operator .subtract,
        .function Builtin.pow.name, .leftParen, .number 4, .comma, .leftParen, .number 5,
        .rightParen, .rightParen, .operator .divide, .leftParen, .number 6, .operator .subtract,
        .number 6, .rightParen] ∧
    ReversePolish.ofTokens
      [.operator .negate, .leftParen, .number 1, .operator .add, .number 2, .rightParen,
        .operator .multiply, .number 3, .operator .percent, .operator .subtract,
        .function Builtin.pow.name, .leftParen, .number 4, .comma, .leftParen, .number 5,
        .rightParen, .rightParen, .operator .divide, .leftParen, .number 6, .operator .subtract,
        .number 6, .rightParen] =
      .ok [.number 1, .number 2, .operator .add, .operator .negate, .number 3, .operator .percent,
        .operator .multiply, .number 4, .number 5, .function Builtin.pow.name, .number 6, .number 6,
        .operator .subtract, .operator .divide, .operator .subtract] ∧
    (Machine.run Expression.quotientByZero.postOrder).mapError Halt.fault =
      Expression.quotientByZero.value := by
  have hsum : (Expression.binary .add (.number 1) (.number 2)).Writes 0 _ :=
    .binary (by decide) (.number 1) (.number 2)
  have hproduct : (Expression.binary .multiply _ (.percent (.number 3))).Writes 2 _ :=
    .binary (by decide) (.negate (by decide) (.parenthesised hsum))
      (.percent (by decide) (.number 3))
  have hdifference : (Expression.binary .subtract (.number 6) (.number 6)).Writes 0 _ :=
    .binary (by decide) (.number 6) (.number 6)
  have hquotient : (Expression.binary .divide _ _).Writes 3 _ :=
    .binary (by decide) (.power (.number 4) (.parenthesised (.number 5)))
      (.parenthesised hdifference)
  have hw : Expression.quotientByZero.Writes 0 _ := .binary (by decide) hproduct hquotient
  exact ⟨hw, ofTokens_and_run_of_writes hw⟩

end DeskCalculator
