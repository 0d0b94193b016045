import DeskCalculator.Proofs.MachineSteps
import DeskCalculator.Proofs.TreeValue

/-!
# What runs to a value is a tree

The converse of `Machine.outcome_run_postOrder`: words that the machine runs without a fault are the
post-orders of trees, one behind the other, and the stack has the values of these trees
(`Machine.Holds.feedAll`). So words that run to one value are the post-order of one tree, and its
value is what the machine found (`Machine.exists_postOrder_of_run`).
-/

namespace DeskCalculator

theorem Operator.eq_or_binary (op : Operator) :
    op = .negate ∨ op = .percent ∨ ∃ b : BinaryOperator, b.operator = op := by
  cases op with
  | add => exact .inr (.inr ⟨.add, rfl⟩)
  | subtract => exact .inr (.inr ⟨.subtract, rfl⟩)
  | multiply => exact .inr (.inr ⟨.multiply, rfl⟩)
  | divide => exact .inr (.inr ⟨.divide, rfl⟩)
  | percent => exact .inr (.inl rfl)
  | negate => exact .inl rfl

theorem Builtin.eq_or_unary (f : Builtin) : f = .pow ∨ ∃ g : UnaryFunction, g.builtin = f := by
  cases f with
  | sin => exact .inr ⟨.sin, rfl⟩
  | cos => exact .inr ⟨.cos, rfl⟩
  | tan => exact .inr ⟨.tan, rfl⟩
  | log => exact .inr ⟨.log, rfl⟩
  | sqrt => exact .inr ⟨.sqrt, rfl⟩
  | pow => exact .inl rfl

theorem BinaryOperator.operation_operator (op : BinaryOperator) :
    op.operator.operation = .binary op.apply := by
  cases op <;> rfl

theorem UnaryFunction.operation_builtin (f : UnaryFunction) :
    f.builtin.operation = .unary f.apply := by
  cases f <;> rfl

namespace Machine

/-- **A stack of values of trees.** The words run so far are the post-orders of the trees, and the
value of the last one is on top. -/
inductive Holds : List Float → List Token → Prop
  | nil : Holds [] []
  | push {stack : List Float} {words : List Token} {e : Expression} {v : Float}
      (h : Holds stack words) (he : e.eval = .ok v) : Holds (v :: stack) (words ++ e.postOrder)

variable {stack stack' : List Float} {words tokens : List Token} {token : Token} {v : Float}

theorem Holds.unary (node : Expression → Expression) {f : Float → Except Fault Float}
    (heval : ∀ e x, e.eval = .ok x → (node e).eval = f x)
    (hpost : ∀ e, (node e).postOrder = e.postOrder ++ [token]) (h : Holds stack words)
    (happly : apply stack (.unary f) = .ok stack') : Holds stack' (words ++ [token]) := by
  obtain ⟨x, rest, v, rfl, hv, rfl⟩ := apply_unary_eq_ok_iff.mp happly
  cases h with
  | @push _ words e _ hrest he =>
    rw [List.append_assoc, ← hpost]
    exact hrest.push ((heval e x he).trans hv)

theorem Holds.binary (node : Expression → Expression → Expression)
    {f : Float → Float → Except Fault Float}
    (heval : ∀ l r x y, l.eval = .ok x → r.eval = .ok y → (node l r).eval = f x y)
    (hpost : ∀ l r, (node l r).postOrder = l.postOrder ++ r.postOrder ++ [token])
    (h : Holds stack words) (happly : apply stack (.binary f) = .ok stack') :
    Holds stack' (words ++ [token]) := by
  obtain ⟨x, y, rest, v, rfl, hv, rfl⟩ := apply_binary_eq_ok_iff.mp happly
  cases h with
  | @push _ words r _ hright hr =>
    cases hright with
    | @push _ words l _ hrest hl =>
      rw [List.append_assoc, List.append_assoc, ← List.append_assoc l.postOrder, ← hpost]
      exact hrest.push ((heval l r x y hl hr).trans hv)

theorem Holds.feed (h : Holds stack words) (hword : token.isWord = true)
    (hknown : token.IsKnown) (hfeed : feed stack token = .ok stack') :
    Holds stack' (words ++ [token]) := by
  cases token with
  | number v =>
    cases hfeed
    exact h.push (e := .number v) rfl
  | constant name =>
    obtain ⟨k, rfl⟩ := hknown
    rw [Machine.feed, Constant.ofName?_eq_some_iff.mpr rfl] at hfeed
    cases hfeed
    exact h.push (e := .constant k) rfl
  | operator op =>
    have happly : apply stack op.operation = .ok stack' := hfeed
    rcases op.eq_or_binary with rfl | rfl | ⟨b, rfl⟩
    · exact h.unary .negate (fun e x he => by rw [Expression.eval, he]; rfl)
        (fun _ => rfl) happly
    · exact h.unary .percent (fun e x he => by rw [Expression.eval, he]; rfl)
        (fun _ => rfl) happly
    · rw [b.operation_operator] at happly
      exact h.binary (.binary b)
        (fun l r x y hl hr => by rw [Expression.eval, hl, hr]; rfl) (fun _ _ => rfl) happly
  | function name =>
    obtain ⟨f, rfl⟩ := hknown
    have happly : apply stack f.operation = .ok stack' := by
      rw [← feed_function, hfeed]
    rcases f.eq_or_unary with rfl | ⟨g, rfl⟩
    · exact h.binary .power
        (fun l r x y hl hr => by rw [Expression.eval, hl, hr]; rfl) (fun _ _ => rfl) happly
    · rw [g.operation_builtin] at happly
      exact h.unary (.call g) (fun e x he => by rw [Expression.eval, he]; rfl)
        (fun _ => rfl) happly
  | leftParen => cases hword
  | rightParen => cases hword
  | comma => cases hword

theorem Holds.feedAll (h : Holds stack words)
    (hwords : ∀ token ∈ tokens, token.isWord = true ∧ token.IsKnown)
    (hfeed : feedAll stack tokens = .ok stack') : Holds stack' (words ++ tokens) := by
  induction tokens generalizing stack words with
  | nil =>
    cases hfeed
    rwa [List.append_nil]
  | cons token tokens ih =>
    obtain ⟨⟨hword, hknown⟩, hrest⟩ := List.forall_mem_cons.mp hwords
    rw [Machine.feedAll] at hfeed
    split at hfeed
    · next hstep =>
      have hnext := ih (h.feed hword hknown hstep) hrest hfeed
      rwa [List.append_assoc] at hnext
    · cases hfeed

/-- **Words that run to one value are the post-order of a tree with this value.** -/
theorem exists_postOrder_of_run
    (hwords : ∀ token ∈ tokens, token.isWord = true ∧ token.IsKnown)
    (h : run tokens = .ok v) : ∃ e : Expression, tokens = e.postOrder ∧ e.value = .ok v := by
  obtain ⟨hfeed, hfinite⟩ := run_eq_ok_iff.mp h
  have hholds : Holds [v] tokens := Holds.nil.feedAll hwords hfeed
  cases hholds with
  | @push _ words e _ hrest he =>
    cases hrest
    refine ⟨e, rfl, ?_⟩
    rw [Expression.value, he]
    exact if_pos hfinite

end Machine

end DeskCalculator
