import DeskCalculator.Proofs.Expression
import DeskCalculator.ReversePolish

/-!
# Reordering follows the precedences

An infix writing of an expression, reordered from a stack on which nothing claims its first operand
(`Open`), leaves the stack as it was, below some operators of the expression that still wait;
what was released and what still waits together are the expression's tokens with every operation
after its operands (`shiftAll_of_writes`). At the end of the whole list everything that waits is
released, so `ofTokens` gives exactly the post-order (`ofTokens_of_writes`).
-/

namespace DeskCalculator.ReversePolish

/-! ### Several tokens at once -/

/-- Shifts tokens in order: all that they release, and the stack after them. -/
def shiftAll (stack : List Pending) : List Token → Except Fault (List Token × List Pending)
  | [] => .ok ([], stack)
  | token :: tokens =>
    match shift stack token with
    | .error fault => .error fault
    | .ok (released, stack') =>
      match shiftAll stack' tokens with
      | .error fault => .error fault
      | .ok (later, stack'') => .ok (released ++ later, stack'')

theorem shiftAll_cons {stack stack' stack'' : List Pending} {token : Token}
    {tokens released later : List Token} (h : shift stack token = .ok (released, stack'))
    (ht : shiftAll stack' tokens = .ok (later, stack'')) :
    shiftAll stack (token :: tokens) = .ok (released ++ later, stack'') := by
  simp only [shiftAll, h, ht]

theorem exists_of_shiftAll_cons {stack stack'' : List Pending} {token : Token}
    {tokens released : List Token}
    (h : shiftAll stack (token :: tokens) = .ok (released, stack'')) :
    ∃ first stack' later, shift stack token = .ok (first, stack') ∧
      shiftAll stack' tokens = .ok (later, stack'') ∧ released = first ++ later := by
  simp only [shiftAll] at h
  split at h
  · cases h
  · next first stack' hfirst =>
    split at h
    · cases h
    · next later last hlater =>
      cases h
      exact ⟨first, stack', later, hfirst, hlater, rfl⟩

theorem shiftAll_cons_of_push {stack stack' stack'' : List Pending} {token : Token}
    {tokens later : List Token} (h : shift stack token = .ok ([], stack'))
    (ht : shiftAll stack' tokens = .ok (later, stack'')) :
    shiftAll stack (token :: tokens) = .ok (later, stack'') :=
  shiftAll_cons h ht

theorem shiftAll_append {stack stack' stack'' : List Pending} {first second : List Token}
    {released later : List Token} (hf : shiftAll stack first = .ok (released, stack'))
    (hs : shiftAll stack' second = .ok (later, stack'')) :
    shiftAll stack (first ++ second) = .ok (released ++ later, stack'') := by
  induction first generalizing stack released with
  | nil =>
    cases hf
    exact hs
  | cons token tokens ih =>
    obtain ⟨r, s, r', hr, hr', rfl⟩ := exists_of_shiftAll_cons hf
    rw [List.cons_append, List.append_assoc]
    exact shiftAll_cons hr (ih hr')

theorem shiftAll_append_singleton {stack stack' stack'' : List Pending} {tokens : List Token}
    {token : Token} {released later : List Token}
    (hf : shiftAll stack tokens = .ok (released, stack'))
    (hs : shift stack' token = .ok (later, stack'')) :
    shiftAll stack (tokens ++ [token]) = .ok (released ++ later, stack'') := by
  refine shiftAll_append hf ?_
  simp only [shiftAll, hs, List.append_nil]

/-- Reordering is shifting tokens and then reordering the later ones. -/
theorem reorder_append {stack stack' : List Pending} {tokens released : List Token}
    (h : shiftAll stack tokens = .ok (released, stack')) (later : List Token) :
    reorder stack (tokens ++ later) = (reorder stack' later).map (released ++ ·) := by
  induction tokens generalizing stack released with
  | nil =>
    cases h
    rw [List.nil_append]
    cases reorder stack' later <;> rfl
  | cons token tokens ih =>
    obtain ⟨r, s, r', hr, hr', rfl⟩ := exists_of_shiftAll_cons h
    simp only [List.cons_append, reorder, hr, ih hr']
    cases reorder stack' later <;> simp [Except.map]

theorem reorder_of_shiftAll {stack stack' : List Pending} {tokens released : List Token}
    (h : shiftAll stack tokens = .ok (released, stack')) :
    reorder stack tokens = (finish stack').map (released ++ ·) := by
  have happend := reorder_append h []
  rwa [List.append_nil] at happend

theorem reorder_append_of_error {stack : List Pending} {tokens : List Token} {fault : Fault}
    (h : shiftAll stack tokens = .error fault) (later : List Token) :
    reorder stack (tokens ++ later) = .error fault := by
  induction tokens generalizing stack with
  | nil => cases h
  | cons token tokens ih =>
    simp only [shiftAll] at h
    split at h
    · next fault' hshift =>
      cases h
      simp only [List.cons_append, reorder, hshift]
    · next released stack' hshift =>
      split at h
      · next fault' hrest =>
        cases h
        simp only [List.cons_append, reorder, hshift, ih hrest]
      · cases h

/-! ### What may stand on the stack before an operand -/

/-- Nothing at the top of the stack gets the coming operand before an operator of the level takes
it, and no function waits there for its parenthesis. -/
def Open (level : Nat) : List Pending → Prop
  | .operator op :: _ => ∀ next : Operator, level ≤ next.precedence → op.outranks next = false
  | .function _ :: _ => False
  | _ => True

theorem Open.mono {level level' : Nat} {stack : List Pending} (h : Open level stack)
    (hl : level ≤ level') : Open level' stack := by
  match stack, h with
  | [], _ => trivial
  | .leftParen :: _, _ => trivial
  | .operator op :: _, h => exact fun next hn => h next (Nat.le_trans hl hn)

theorem open_leftParen (level : Nat) (stack : List Pending) : Open level (.leftParen :: stack) :=
  trivial

theorem open_negate (stack : List Pending) : Open 5 (.operator .negate :: stack) := by
  intro next hn
  cases next <;> first | rfl | exact absurd hn (by decide)

theorem open_binary (op : BinaryOperator) (stack : List Pending) :
    Open (op.level + 1) (.operator op.operator :: stack) := by
  intro next hn
  have hp := op.precedence_operator
  simp only [Operator.outranks, Bool.or_eq_false_iff, decide_eq_false_iff_not,
    Bool.and_eq_false_iff, beq_eq_false_iff_ne]
  omega

/-- Operators that wait for a later one: all of them, and of level at least `level`. -/
def Waiting (level : Nat) (stack : List Pending) : Prop :=
  ∀ p ∈ stack, ∃ op : Operator, p = .operator op ∧ level ≤ op.precedence

theorem Waiting.mono {level level' : Nat} {stack : List Pending} (h : Waiting level' stack)
    (hl : level ≤ level') : Waiting level stack := fun p hp =>
  let ⟨op, he, ho⟩ := h p hp
  ⟨op, he, Nat.le_trans hl ho⟩

theorem waiting_nil (level : Nat) : Waiting level [] := fun _ h => nomatch h

theorem Waiting.append_singleton {level : Nat} {stack : List Pending} {op : Operator}
    (h : Waiting level stack) (ho : level ≤ op.precedence) :
    Waiting level (stack ++ [.operator op]) := by
  intro p hp
  rcases List.mem_append.mp hp with hp | hp
  · exact h p hp
  · exact ⟨op, List.mem_singleton.mp hp, ho⟩

theorem Waiting.not_isParen {level : Nat} {stack : List Pending} (h : Waiting level stack) :
    ∀ p ∈ stack, (!p.isParen) = true := by
  intro p hp
  obtain ⟨op, rfl, -⟩ := h p hp
  rfl

/-- Operators that wait yield to one that groups to the left and binds no tighter. -/
theorem Waiting.yieldsTo {level : Nat} {stack : List Pending} {next : Operator}
    (h : Waiting level stack) (hn : next.precedence ≤ level)
    (ha : next.leftAssociative = true) : ∀ p ∈ stack, p.yieldsTo next = true := by
  intro p hp
  obtain ⟨op, rfl, ho⟩ := h p hp
  simp only [Pending.yieldsTo, Operator.outranks, Bool.or_eq_true, decide_eq_true_eq,
    Bool.and_eq_true, beq_iff_eq]
  by_cases hlt : next.precedence < op.precedence
  · exact Or.inl hlt
  · exact Or.inr ⟨by omega, ha⟩

/-! ### Single tokens on such a stack -/

theorem Open.takeWhile_yieldsTo {level : Nat} {stack : List Pending} {next : Operator}
    (h : Open level stack) (hn : level ≤ next.precedence) :
    stack.takeWhile (·.yieldsTo next) = [] ∧ stack.dropWhile (·.yieldsTo next) = stack := by
  match stack, h with
  | [], _ => exact ⟨rfl, rfl⟩
  | .leftParen :: _, _ => exact ⟨rfl, rfl⟩
  | .operator op :: _, h =>
    have hy : (Pending.operator op).yieldsTo next = false := h next hn
    constructor
    · rw [List.takeWhile_cons_of_neg (by simp [hy])]
    · rw [List.dropWhile_cons_of_neg (by simp [hy])]

/-- An operator releases those that wait and yield to it, down to the open stack. -/
theorem shift_operator {level : Nat} {waiting stack : List Pending} {next : Operator}
    (hw : ∀ p ∈ waiting, p.yieldsTo next = true) (ho : Open level stack)
    (hn : level ≤ next.precedence) :
    shift (waiting ++ stack) (.operator next) =
      .ok (waiting.map Pending.token, .operator next :: stack) := by
  obtain ⟨ht, hd⟩ := ho.takeWhile_yieldsTo hn
  rw [shift, List.takeWhile_append_of_pos hw, List.dropWhile_append_of_pos hw, ht, hd,
    List.append_nil]

theorem Open.shift_operator {level : Nat} {stack : List Pending} {next : Operator}
    (h : Open level stack) (hn : level ≤ next.precedence) :
    shift stack (.operator next) = .ok ([], .operator next :: stack) := by
  obtain ⟨ht, hd⟩ := h.takeWhile_yieldsTo hn
  rw [shift, ht, hd]
  rfl

theorem group_append_leftParen {waiting stack : List Pending}
    (h : ∀ p ∈ waiting, (!p.isParen) = true) :
    group (waiting ++ .leftParen :: stack) = waiting.map Pending.token := by
  rw [group, List.takeWhile_append_of_pos h]
  simp [Pending.isParen]

theorem enclosing_append_leftParen {waiting stack : List Pending}
    (h : ∀ p ∈ waiting, (!p.isParen) = true) :
    enclosing (waiting ++ .leftParen :: stack) = .leftParen :: stack := by
  rw [enclosing, List.dropWhile_append_of_pos h]
  simp [Pending.isParen]

theorem shift_comma {level : Nat} {waiting stack : List Pending} (h : Waiting level waiting) :
    shift (waiting ++ .leftParen :: stack) .comma =
      .ok (waiting.map Pending.token, .leftParen :: stack) := by
  rw [shift, enclosing_append_leftParen h.not_isParen, group_append_leftParen h.not_isParen]

/-- No function waits at the top of a stack. -/
def NoCall : List Pending → Prop
  | .function _ :: _ => False
  | _ => True

theorem Open.noCall {level : Nat} {stack : List Pending} (h : Open level stack) :
    NoCall stack := by
  match stack, h with
  | [], _ => trivial
  | .leftParen :: _, _ => trivial
  | .operator _ :: _, _ => trivial

/-- A right parenthesis releases what waits inside; no function waits outside. -/
theorem shift_rightParen {waiting stack : List Pending} (h : ∀ p ∈ waiting, (!p.isParen) = true)
    (hs : NoCall stack) :
    shift (waiting ++ .leftParen :: stack) .rightParen =
      .ok (waiting.map Pending.token, stack) := by
  rw [shift, enclosing_append_leftParen h, group_append_leftParen h]
  match stack, hs with
  | [], _ => rfl
  | .leftParen :: _, _ => rfl
  | .operator _ :: _, _ => rfl

theorem shift_rightParen_call {level : Nat} {waiting stack : List Pending} (name : Text)
    (h : Waiting level waiting) :
    shift (waiting ++ .leftParen :: .function name :: stack) .rightParen =
      .ok (waiting.map Pending.token ++ [.function name], stack) := by
  rw [shift, enclosing_append_leftParen h.not_isParen, group_append_leftParen h.not_isParen]

/-! ### Whole writings -/

/-- A writing between parentheses: what it releases is complete. -/
theorem shiftAll_leftParen {stack stack' : List Pending} {waiting : List Pending}
    {tokens released later : List Token} {last : Token}
    (ht : shiftAll (.leftParen :: stack) tokens = .ok (released, waiting ++ .leftParen :: stack))
    (hl : shift (waiting ++ .leftParen :: stack) last = .ok (later, stack')) :
    shiftAll stack (.leftParen :: tokens ++ [last]) = .ok (released ++ later, stack') := by
  refine shiftAll_append_singleton ?_ hl
  exact shiftAll_cons_of_push rfl ht

theorem shiftAll_arguments {name : Text} {stack waiting waiting' : List Pending}
    {first second released released' : List Token} {level level' : Nat}
    (hs : shiftAll (.leftParen :: .function name :: stack) first =
      .ok (released, waiting ++ .leftParen :: .function name :: stack))
    (hw : Waiting level waiting)
    (hs' : shiftAll (.leftParen :: .function name :: stack) second =
      .ok (released', waiting' ++ .leftParen :: .function name :: stack))
    (hw' : Waiting level' waiting') :
    shiftAll stack (.function name :: .leftParen :: first ++ .comma :: second ++ [.rightParen]) =
      .ok (released ++ (waiting.map Pending.token ++
        (released' ++ (waiting'.map Pending.token ++ [.function name]))), stack) := by
  have hend := shiftAll_append_singleton hs' (shift_rightParen_call name hw')
  have hmid := shiftAll_append hs (shiftAll_cons (shift_comma hw) hend)
  have hparens : shiftAll (.function name :: stack)
      (.leftParen :: (first ++ .comma :: (second ++ [.rightParen]))) = _ :=
    shiftAll_cons_of_push rfl hmid
  have hall : shiftAll stack
      (.function name :: .leftParen :: (first ++ .comma :: (second ++ [.rightParen]))) = _ :=
    shiftAll_cons_of_push rfl hparens
  simpa only [List.nil_append, List.cons_append, List.append_assoc] using hall

/-- **A writing on an open stack.** What it releases, and then the operators it leaves waiting, are
the tokens of the expression after their operands. -/
theorem shiftAll_of_writes {level : Nat} {e : Expression} {tokens : List Token}
    (h : e.Writes level tokens) : ∀ {stack : List Pending}, Open level stack →
      ∃ released waiting, shiftAll stack tokens = .ok (released, waiting ++ stack) ∧
        released ++ waiting.map Pending.token = e.postOrder ∧ Waiting level waiting := by
  induction h with
  | number v => exact fun _ => ⟨_, [], rfl, rfl, waiting_nil _⟩
  | constant k => exact fun _ => ⟨_, [], rfl, rfl, waiting_nil _⟩
  | @negate level e ts hl he ih =>
    intro stack ho
    obtain ⟨released, waiting, hs, hp, hw⟩ := ih (open_negate stack)
    have hn : level ≤ Operator.negate.precedence := hl
    refine ⟨released, waiting ++ [.operator .negate], ?_, ?_, (hw.mono hl).append_singleton hn⟩
    · rw [List.append_assoc]
      exact shiftAll_cons_of_push (ho.shift_operator hn) hs
    · rw [List.map_append, ← List.append_assoc, hp]
      rfl
  | @percent level e ts hl he ih =>
    intro stack ho
    obtain ⟨released, waiting, hs, hp, hw⟩ := ih (ho.mono hl)
    refine ⟨released ++ waiting.map Pending.token, [.operator .percent], ?_, ?_,
      (waiting_nil level).append_singleton hl⟩
    · exact shiftAll_append_singleton hs (shift_operator (hw.yieldsTo (Nat.le_refl _) rfl) ho hl)
    · rw [hp]
      rfl
  | @binary level op l r ls rs hl hleft hright ihl ihr =>
    intro stack ho
    have hlp : level ≤ op.operator.precedence := op.precedence_operator ▸ hl
    obtain ⟨released, waiting, hs, hp, hw⟩ := ihl (ho.mono hl)
    obtain ⟨released', waiting', hs', hp', hw'⟩ := ihr (open_binary op stack)
    refine ⟨released ++ (waiting.map Pending.token ++ released'),
      waiting' ++ [.operator op.operator], ?_, ?_,
      (hw'.mono (by omega)).append_singleton hlp⟩
    · rw [List.append_assoc]
      refine shiftAll_append hs (shiftAll_cons ?_ hs')
      exact shift_operator
        (hw.yieldsTo (Nat.le_of_eq op.precedence_operator) op.leftAssociative_operator) ho hlp
    · simp only [Expression.postOrder, ← hp, ← hp', List.map_append, List.map_cons, List.map_nil,
        Pending.token, List.append_assoc]
  | @call level f a ts ha ih =>
    intro stack ho
    obtain ⟨released, waiting, hs, hp, hw⟩ :=
      ih (open_leftParen 0 (.function f.builtin.name :: stack))
    refine ⟨released ++ (waiting.map Pending.token ++ [.function f.builtin.name]), [], ?_, ?_,
      waiting_nil _⟩
    · exact shiftAll_cons_of_push rfl (shiftAll_leftParen hs (shift_rightParen_call _ hw))
    · rw [← List.append_assoc, hp]
      exact List.append_nil _
  | @power level b e bs es hb he ihb ihe =>
    intro stack ho
    have hparen := open_leftParen 0 (.function Builtin.pow.name :: stack)
    obtain ⟨released, waiting, hs, hp, hw⟩ := ihb hparen
    obtain ⟨released', waiting', hs', hp', hw'⟩ := ihe hparen
    refine ⟨released ++ (waiting.map Pending.token ++
      (released' ++ (waiting'.map Pending.token ++ [.function Builtin.pow.name]))), [], ?_, ?_,
      waiting_nil _⟩
    · exact shiftAll_arguments hs hw hs' hw'
    · simp only [Expression.postOrder, ← hp, ← hp', List.map_nil, List.append_nil,
        List.append_assoc]
  | @parenthesised level e ts he ih =>
    intro stack ho
    obtain ⟨released, waiting, hs, hp, hw⟩ := ih (open_leftParen 0 stack)
    refine ⟨released ++ waiting.map Pending.token, [], ?_, ?_, waiting_nil _⟩
    · exact shiftAll_leftParen hs (shift_rightParen hw.not_isParen ho.noCall)
    · rw [hp]
      exact List.append_nil _

/-- **A writing is reordered to the post-order.** -/
theorem ofTokens_of_writes {level : Nat} {e : Expression} {tokens : List Token}
    (h : e.Writes level tokens) : ofTokens tokens = .ok e.postOrder := by
  have hopen : Open level [] := trivial
  obtain ⟨released, waiting, hs, hp, hw⟩ := shiftAll_of_writes h hopen
  have hany : (waiting ++ []).any (·.isParen) = false := by
    rw [List.append_nil, List.any_eq_false]
    intro p hm
    simpa using hw.not_isParen p hm
  rw [ofTokens, reorder_of_shiftAll hs, finish, hany, List.append_nil, ← hp]
  rfl

end DeskCalculator.ReversePolish
