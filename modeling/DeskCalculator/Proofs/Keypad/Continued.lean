import DeskCalculator.Proofs.Keypad.Buffers
import DeskCalculator.Proofs.Keypad.Screen
import DeskCalculator.Proofs.Precedence
import DeskCalculator.Proofs.Token.Printing
import DeskCalculator.Proofs.TreeValue

/-!
# Continuing from a shown result

Behind a shown result the sign of an operator and a number are typed, and the buffer is evaluated.
For a result other than zero the buffer is the result, the sign and the number, so what is evaluated
is the operation on the two. A shown zero is lost, like any lone zero in front of a key: the buffer
is then the sign and the number, which is still a number for the minus, and lacks an operand for the
other operators (`told_evaluate_behind`, `continuing_result`).

The shown form of a number forgets the sign of a zero, so the operation that is evaluated may have
another zero for an operand; it has the same shown form all the same (`told_operate_of_zeros`).
-/

namespace DeskCalculator

open Binary64

/-! ### Outcomes of computations -/

/-- The outcome of a computation. -/
def Outcome.of : Except Fault Float → Outcome
  | .ok v => .success v (Layout.display.write v)
  | .error fault => .failure fault.kind fault.message

/-- What the user is told of an outcome: the shown form of the value, or the kind and the message of
the fault. -/
def Outcome.told : Outcome → Text ⊕ FaultKind × String
  | success _ shown => .inl shown
  | failure kind message => .inr (kind, message)

theorem evaluate_eq (text : Text) : evaluate text = .of (valueOf text) := by
  unfold evaluate
  split
  · next v hvalue => rw [hvalue]; rfl
  · next fault hvalue => rw [hvalue]; rfl

/-- **An infix text evaluates to the value of its expression.** -/
theorem evaluate_of_writes {e : Expression} {tokens : List Token} {text : Text}
    (hne : trim text ≠ []) (htokens : Token.tokenize text = .ok tokens)
    (h : Expression.Writes 0 e tokens) : evaluate text = .of e.value := by
  rw [evaluate_eq, valueOf, if_neg hne, htokens, ← Machine.outcome_run_postOrder e]
  simp only [ReversePolish.ofTokens_of_writes h]
  cases Machine.run e.postOrder <;> rfl

/-! ### Operations on zeros -/

section

variable {v w z : Float} {op : BinaryOperator}

/-- The operation on two numbers. -/
def operate (op : BinaryOperator) (v w : Float) : Expression :=
  .binary op (.number v) (.number w)

theorem value_operate : (operate op v w).value =
    (op.apply v w).bind fun x => if x.isFinite then .ok x else .error .notFinite := rfl

theorem told_of_code_eq_zero (h : code z = 0) :
    (Outcome.of (if z.isFinite then .ok z else .error .notFinite)).told = .inl ['0'] := by
  rw [if_pos (isFinite_of_code_eq_zero h)]
  exact congrArg Sum.inl (display_of_code_eq_zero h)

/-- **As an operand all zeros are alike**, behind a number that is no zero. -/
theorem told_operate_of_zeros {z' : Float} (hv : v.isFinite = true) (h0 : code v ≠ 0)
    (hz : code z = 0) (hz' : code z' = 0) :
    (Outcome.of (operate op v z).value).told = (Outcome.of (operate op v z').value).told := by
  rw [value_operate, value_operate]
  cases op with
  | add =>
    rw [BinaryOperator.apply, BinaryOperator.apply, add_of_code_eq_zero hv h0 hz,
      add_of_code_eq_zero hv h0 hz']
  | subtract =>
    rw [BinaryOperator.apply, BinaryOperator.apply, sub_of_code_eq_zero hv h0 hz,
      sub_of_code_eq_zero hv h0 hz']
  | multiply =>
    exact (told_of_code_eq_zero (code_mul_of_code_eq_zero hv hz)).trans
      (told_of_code_eq_zero (code_mul_of_code_eq_zero hv hz')).symm
  | divide =>
    rw [BinaryOperator.apply, BinaryOperator.apply, quotient_of_code_eq_zero v hz,
      quotient_of_code_eq_zero v hz']

theorem told_operate_unsignedZero (hv : v.isFinite = true) (h0 : code v ≠ 0)
    (hw : w.isFinite = true) :
    (Outcome.of (operate op v (unsignedZero w)).value).told =
      (Outcome.of (operate op v w).value).told := by
  by_cases h : code w = 0
  · rw [unsignedZero_of_code_eq_zero h]
    exact told_operate_of_zeros hv h0 code_zero h
  · rw [unsignedZero_of_code_ne_zero hw h]

theorem told_negate_unsignedZero (hz : code z = 0) (hw : w.isFinite = true) :
    (Outcome.of (Expression.negate (.number (unsignedZero w))).value).told =
      (Outcome.of (operate .subtract z w).value).told := by
  by_cases h : code w = 0
  · rw [unsignedZero_of_code_eq_zero h]
    exact (told_of_code_eq_zero (code_neg_of_code_eq_zero code_zero)).trans
      (told_of_code_eq_zero (code_sub_of_code_eq_zero h hz)).symm
  · rw [unsignedZero_of_code_ne_zero hw h, value_operate, BinaryOperator.apply,
      sub_of_code_eq_zero_left hw h hz]
    rfl

theorem told_operate_ne (message : String) :
    (Outcome.of (operate op v w).value).told ≠ .inr (.stackUnderflow, message) := by
  rw [value_operate]
  have hcheck (x : Float) :
      (Outcome.of (if x.isFinite then .ok x else .error .notFinite)).told ≠
        .inr (.stackUnderflow, message) := by
    split <;> simp [Outcome.of, Outcome.told, Fault.kind]
  cases op with
  | add => exact hcheck _
  | subtract => exact hcheck _
  | multiply => exact hcheck _
  | divide =>
    rw [BinaryOperator.apply, quotient]
    split
    · simp [Except.bind, Outcome.of, Outcome.told, Fault.kind]
    · exact hcheck _

end

/-! ### Keys behind a shown result -/

theorem sign_ne (op : Operator) : op.sign ≠ '.' ∧ op.sign ≠ '(' ∧ op.sign ≠ '0' := by
  cases op <;> decide

theorem continuesResult_sign (op : Operator) : continuesResult [op.sign] = true :=
  isOperatorSign_sign op

/-- What is kept of a shown result before a key that goes on with it: nothing of a zero. -/
def keptOf (shown : Text) : Text :=
  if shown = ['0'] then [] else shown

theorem struck_sign (lastResult : Option Text) (shown : Text) (op : Operator) :
    struck lastResult shown [op.sign] = keptOf shown ++ [op.sign] := by
  have hpoint : [op.sign] ≠ ['.'] := fun h => (sign_ne op).1 (List.cons.inj h).1
  have hparen : [op.sign] ≠ ['('] := fun h => (sign_ne op).2.1 (List.cons.inj h).1
  have hkept : kept none shown [op.sign] = keptOf shown := by
    rw [kept_none, keptOf]
    simp only [hpoint, ne_eq, not_false_eq_true, and_true]
  rw [struck_eq (List.cons_ne_nil _ _) fun h => absurd h hpoint,
    kept_of_continues _ _ (continuesResult_sign op), hkept, placed, if_neg fun h => hparen h.1]

/-- A buffer that is no lone zero stays in front of what is typed. -/
theorem prefix_struck {buffer key : Text} (hne : buffer ≠ ['0']) (hkey : IsKey key) :
    buffer <+: struck none buffer key := by
  by_cases hrefused : key = ['.'] ∧ '.' ∈ segment buffer
  · rw [hrefused.1, struck_refused hrefused.2]
  · rw [struck_eq hkey.ne_nil fun htext hmem => hrefused ⟨htext, hmem⟩, kept_none,
      if_neg fun h => hne h.1]
    exact List.prefix_append _ _

theorem prefix_typed {buffer : Text} {keys : List Text} (hnil : buffer ≠ []) (hne : buffer ≠ ['0'])
    (hkeys : ∀ key ∈ keys, IsKey key) : buffer <+: typed none buffer keys := by
  induction keys generalizing buffer with
  | nil => exact List.prefix_rfl
  | cons key keys ih =>
    obtain ⟨hkey, hkeys⟩ := List.forall_mem_cons.mp hkeys
    have hstruck := prefix_struck hne hkey
    refine hstruck.trans (ih ?_ ?_ hkeys)
    · rintro hempty
      rw [hempty] at hstruck
      exact hnil (List.prefix_nil.mp hstruck)
    · rintro hzero
      rw [hzero] at hstruck
      rcases List.prefix_cons_iff.mp hstruck with hempty | ⟨rest, hbuffer, hrest⟩
      · exact hnil hempty
      · rw [List.prefix_nil.mp hrest] at hbuffer
        exact hne hbuffer

theorem isMargin_sign (op : Operator) : isMargin op.sign = false := by
  cases op <;> decide +kernel

theorem isSeparator_sign (op : Operator) : isSeparator op.sign = true := by
  cases op <;> rfl

section

variable {shown : Text} {op : Operator} {w : Float}

theorem IsPlain.isMargin {text : Text} (h : IsPlain text) : ∀ c ∈ text, isMargin c = false := by
  obtain ⟨n, rfl⟩ := h
  exact fun _ hc => n.isMargin_of_mem_text hc

theorem keptOf_plain (h : IsPlain shown) :
    (∀ c ∈ keptOf shown, isMargin c = false) ∧ '(' ∉ keptOf shown ∧ PointsApart (keptOf shown) := by
  unfold keptOf
  split
  · exact ⟨fun _ hc => absurd hc List.not_mem_nil, List.not_mem_nil, legible_nil.points⟩
  · exact ⟨h.isMargin, h.leftParen_not_mem, h.legible.points⟩

theorem typable_behind_sign {numeral : Text} (hshown : IsPlain shown) (hnumeral : IsPlain numeral)
    (op : Operator) : Typable (keptOf shown ++ [op.sign] ++ numeral) := by
  obtain ⟨hmargin, hparen, hpoints⟩ := keptOf_plain hshown
  refine ⟨?_, ?_, hpoints.append_separator hnumeral.legible.points (isSeparator_sign op)⟩
  · intro c hc
    simp only [List.mem_append, List.mem_singleton] at hc
    rcases hc with (hc | rfl) | hc
    · exact hmargin c hc
    · exact isMargin_sign op
    · exact hnumeral.isMargin c hc
  · intro before after heq
    have hmem : '(' ∈ keptOf shown ++ [op.sign] ++ numeral := by simp [heq]
    simp only [List.mem_append, List.mem_singleton] at hmem
    rcases hmem with (hmem | hsign) | hmem
    · exact absurd hmem hparen
    · exact absurd hsign.symm (sign_ne op).2.1
    · exact absurd hmem hnumeral.leftParen_not_mem

theorem behind_sign_ne (op : Operator) (front : Text) :
    front ++ [op.sign] ≠ [] ∧ front ++ [op.sign] ≠ ['0'] := by
  refine ⟨List.append_ne_nil_of_right_ne_nil _ (List.cons_ne_nil _ _), fun h => ?_⟩
  have hlast := congrArg List.getLast? h
  rw [List.getLast?_concat] at hlast
  exact (sign_ne op).2.2 (Option.some.inj hlast)

/-- The keys behind the sign do not write the latest result. -/
theorem not_retypes_behind_sign {keys : List Text} (hkeys : ∀ key ∈ keys, IsKey key) :
    ¬ Retypes (some (resultLine shown)) (keptOf shown ++ [op.sign]) keys := by
  rintro ⟨before, key, after, rfl, hover⟩
  obtain ⟨hnil, hzero⟩ := behind_sign_ne op (keptOf shown)
  -- Whatever has been typed begins with what is kept and the sign, which the result does not.
  have hprefix := prefix_typed hnil hzero fun k hk => hkeys k (List.mem_append_left _ hk)
  have hshown := (List.cons.inj (List.cons.inj (Option.some.inj hover.shown)).2).2
  rw [← hshown] at hprefix
  unfold keptOf at hprefix
  split at hprefix
  · next h0 =>
    rw [h0] at hprefix
    exact (sign_ne op).2.2 (List.cons_prefix_cons.mp hprefix).1
  · have hlength := hprefix.length_le
    rw [List.length_append, List.length_singleton] at hlength
    omega

/-- **The buffer behind a shown result**: what is kept of it, the sign and the number. -/
theorem typed_behind_result {numeral : Text} (hshown : IsPlain shown) (hnumeral : IsPlain numeral)
    (op : Operator) :
    typed (some (resultLine shown)) shown ([op.sign] :: keystrokes numeral) =
      keptOf shown ++ [op.sign] ++ numeral := by
  have hkeys : ∀ key ∈ keystrokes numeral, IsKey key := fun _ hk => isKey_of_mem_keystrokes hk
  have hplain : ∀ line, some (resultLine shown) = some line →
      ∃ text, IsPlain text ∧ line = resultLine text := fun line hline =>
    ⟨shown, hshown, (Option.some.inj hline).symm⟩
  obtain ⟨hnil, hzero⟩ := behind_sign_ne op (keptOf shown)
  rw [typed_append, struck_sign,
    (typed_eq_iff_not_retypes hkeys hplain _).mpr (not_retypes_behind_sign hkeys)]
  exact typed_of_typable _ _ (typable_behind_sign hshown hnumeral op) fun h =>
    absurd h (not_or.mpr ⟨hnil, hzero⟩)

end

/-! ### What is evaluated -/

namespace PlainNumeral

variable (n : PlainNumeral)

/-- A plain numeral as an expression. -/
def expression : Expression :=
  if n.negative then .negate (.number n.magnitude) else .number n.magnitude

/-- The tokens of a plain numeral. -/
def tokens : List Token :=
  if n.negative then [.operator .negate, .number n.magnitude] else [.number n.magnitude]

theorem eval_expression : n.expression.eval = .ok n.value := by
  unfold expression value
  split <;> rfl

theorem writes_tokens {level : Nat} (h : level ≤ 5) :
    Expression.Writes level n.expression n.tokens := by
  unfold expression tokens
  split
  · exact .negate h (.number _)
  · exact .number _

end PlainNumeral

namespace Token

theorem spaced_operator {numeral : Text} {x : Float} (op : Operator)
    (hread : Numeral.read? numeral = some x) :
    Spaced [operator op, number x] ([op.sign] ++ numeral) :=
  .cons_word (.operator op) (spaced_singleton (.number hread)) fun _ _ =>
    not_runsInto (.inl rfl) (.inl rfl)

theorem spaced_plain (n : PlainNumeral) {numeral : Text} {x : Float} (op : Operator)
    (hread : Numeral.read? numeral = some x) :
    Spaced (n.tokens ++ [operator op, number x]) (n.text ++ [op.sign] ++ numeral) := by
  have hunsigned : Spaced (number n.magnitude :: [operator op, number x])
      (n.unsigned ++ ([op.sign] ++ numeral)) :=
    .cons_word (.number n.read?_unsigned) (spaced_operator op hread) fun next hnext =>
      not_runsInto (.inr (Option.some.inj hnext ▸ rfl)) (.inl rfl)
  rw [List.append_assoc]
  unfold PlainNumeral.tokens PlainNumeral.text
  split
  · rw [List.append_assoc]
    exact .cons_word (.operator .negate) hunsigned fun _ _ => not_runsInto (.inl rfl) (.inl rfl)
  · exact hunsigned

theorem signsInPlace_plain (n : PlainNumeral) (op : BinaryOperator) (x : Float) :
    SignsInPlace [] (n.tokens ++ [operator op.operator, number x]) := by
  unfold PlainNumeral.tokens
  split <;> cases op <;>
    simp [signsInPlace_cons, signsInPlace_nil, StandsBehind, BeginsOperand,
      BinaryOperator.operator]

end Token

section

variable {v w : Float} {shown : Text} {op : BinaryOperator}

theorem trim_typed {text : Text} (h : Typable text) : trim text = text :=
  trim_eq_self h.margin

theorem code_eq_zero_of_display (hv : v.isFinite = true) (h : Layout.display.write v = ['0']) :
    code v = 0 := by
  have hvalue := evaluate_display hv
  have hzero : evaluate ['0'] = .success 0 ['0'] := by decide +kernel
  rw [h, hzero] at hvalue
  injection hvalue with hvalue
  split at hvalue
  · next h0 => exact (beq_zero_iff hv).mp h0
  · rw [← hvalue]
    exact code_zero

/-- **Behind a number that is no zero** the operation on the two numbers is evaluated. -/
theorem evaluate_plain (n : PlainNumeral) (op : BinaryOperator) {numeral : Text} {x : Float}
    (hread : Numeral.read? numeral = some x)
    (htrim : trim (n.text ++ [op.operator.sign] ++ numeral) ≠ []) :
    evaluate (n.text ++ [op.operator.sign] ++ numeral) = .of (operate op n.value x).value := by
  have htokens : Token.tokenize (n.text ++ [op.operator.sign] ++ numeral) =
      .ok (n.tokens ++ [.operator op.operator, .number x]) :=
    Token.tokenize_eq_ok_iff.mpr
      (Token.lexAfter_spaced (Token.spaced_plain n op.operator hread) []
        (Token.signsInPlace_plain n op x))
  have hlevel : op.level ≤ 5 := by cases op <;> decide
  have hwrites : Expression.Writes 0 (.binary op n.expression (.number x))
      (n.tokens ++ [.operator op.operator, .number x]) :=
    .binary (Nat.zero_le _) (n.writes_tokens hlevel) (.number x)
  rw [evaluate_of_writes htrim htokens hwrites, Expression.value, Expression.eval,
    n.eval_expression]
  rfl

theorem tokenize_sign {sign : Operator} (hsign : sign ≠ .subtract) {numeral : Text} {x : Float}
    (hread : Numeral.read? numeral = some x) :
    Token.tokenize ([sign.sign] ++ numeral) = .ok [.operator sign, .number x] := by
  have hplace : Token.SignsInPlace [] [.operator sign, .number x] := by
    simp [Token.signsInPlace_cons, Token.signsInPlace_nil, Token.StandsBehind, Token.BeginsOperand,
      hsign]
  exact Token.tokenize_eq_ok_iff.mpr
    (Token.lexAfter_spaced (Token.spaced_operator sign hread) [] hplace)

/-- Behind a minus the opposite of a number is evaluated. -/
theorem evaluate_minus {numeral : Text} {x : Float} (hread : Numeral.read? numeral = some x)
    (htrim : trim (['-'] ++ numeral) ≠ []) :
    evaluate (['-'] ++ numeral) = .of (Expression.negate (.number x)).value :=
  have hsign : Operator.negate ≠ .subtract := by decide
  evaluate_of_writes htrim (tokenize_sign hsign hread) (.negate (Nat.zero_le _) (.number x))

/-- Behind the sign of another operator an operand is lacking. -/
theorem evaluate_operator (hop : op ≠ .subtract) {numeral : Text} {x : Float}
    (hread : Numeral.read? numeral = some x) (htrim : trim ([op.operator.sign] ++ numeral) ≠ []) :
    evaluate ([op.operator.sign] ++ numeral) =
      .failure .stackUnderflow (Fault.underflow 2).message := by
  have hsign : op.operator ≠ .subtract := by
    cases op with
    | subtract => exact absurd rfl hop
    | add => decide
    | multiply => decide
    | divide => decide
  rw [evaluate_eq, valueOf, if_neg htrim, tokenize_sign hsign hread]
  cases op <;> rfl

/-! ### Continuing -/

/-- **What the buffer behind a shown result evaluates to**: the operation on the two numbers, unless
the result is a zero and the operator is not the minus. -/
theorem told_evaluate_behind (hv : v.isFinite = true) (hw : w.isFinite = true) (h : 0 ≤ w) :
    (evaluate (keptOf (Layout.display.write v) ++ [op.operator.sign] ++
        Layout.display.write w)).told = (Outcome.of (operate op v w).value).told ↔
      (v == 0) = false ∨ op = .subtract := by
  obtain ⟨n, hn, -, -, hvalue⟩ := exists_plain_display hv
  obtain ⟨m, hm, -⟩ := exists_plain_display hw
  have hread := read?_display hw h
  have htypable := typable_behind_sign ⟨n, hn⟩ ⟨m, hm⟩ op.operator
  have htrim : trim (keptOf (Layout.display.write v) ++ [op.operator.sign] ++
      Layout.display.write w) ≠ [] := by
    rw [trim_typed htypable]
    simp
  by_cases h0 : code v = 0
  · have hzero : (v == 0) = true := (beq_zero_iff hv).mpr h0
    rw [display_of_code_eq_zero h0, keptOf, if_pos rfl, List.nil_append] at htrim ⊢
    by_cases hop : op = .subtract
    · subst hop
      simp only [or_true, iff_true]
      exact (congrArg Outcome.told (evaluate_minus hread htrim)).trans
        (told_negate_unsignedZero h0 hw)
    · simp only [hzero, hop, Bool.true_eq_false, or_self, iff_false]
      rw [evaluate_operator hop hread htrim]
      exact (told_operate_ne _).symm
  · have hzero : (v == 0) = false := Bool.eq_false_iff.mpr fun hz => h0 ((beq_zero_iff hv).mp hz)
    have hshown : keptOf (Layout.display.write v) = n.text :=
      (if_neg fun hd => h0 (code_eq_zero_of_display hv hd)).trans hn.symm
    rw [hshown] at htrim ⊢
    rw [evaluate_plain n op hread htrim, hvalue, if_neg (Bool.eq_false_iff.mp hzero),
      told_operate_unsignedZero hv h0 hw]
    simp only [hzero, true_or]

end

theorem Machine.outcome_run_operate (op : BinaryOperator) (v w : Float) :
    outcome (run [.number v, .number w, .operator op.operator]) = (operate op v w).value :=
  outcome_run_postOrder (operate op v w)

theorem shows_of_evaluate (stamp : Nat → Stamp) {desk : Desk} {v : Float} {shown : Text}
    (h : evaluate (trim desk.pad.buffer) = .success v shown) :
    (desk.dispatch (Dialogue.supply stamp) .evaluate).pad.buffer = shown ∧
      (desk.dispatch (Dialogue.supply stamp) .evaluate).pad.lastResult = some (resultLine shown) ∧
      (desk.dispatch (Dialogue.supply stamp) .evaluate).pad.message = none := by
  have hne : trim desk.pad.buffer ≠ [] := by
    intro hnil
    rw [hnil] at h
    cases h
  have hpad : (desk.dispatch (Dialogue.supply stamp) .evaluate).pad =
      desk.pad.apply evaluate (stamp desk.recorded) .evaluate := rfl
  rw [hpad, apply_evaluate_of_success hne h]
  exact ⟨rfl, rfl, rfl⟩

/-- The intents that continue a shown result: an evaluation, the sign of an operator, the keys of a
shown number and another evaluation. -/
def continuing (op : BinaryOperator) (w : Float) : List Intent :=
  [.evaluate] ++ ([op.operator.sign] :: keystrokes (Layout.display.write w)).map .append ++
    [.evaluate]

theorem dispatchAll_continuing (stamp : Nat → Stamp) (desk : Desk) (op : BinaryOperator)
    (w : Float) : desk.dispatchAll (Dialogue.supply stamp) (continuing op w) =
      (keyed stamp (desk.dispatch (Dialogue.supply stamp) .evaluate)
        ([op.operator.sign] :: keystrokes (Layout.display.write w))).dispatch
          (Dialogue.supply stamp) .evaluate :=
  List.foldl_concat ..

/-- **Continuing from a shown result.** On any desk, the evaluation of an expression with a value,
the sign of an operator, the keys of a shown number that is not below zero and an evaluation add one
entry to what the history held with the value. It tells the same as the machine does of the
operation on the two numbers, if and only if the value is no zero or the operator is the minus. -/
theorem continuing_result (stamp : Nat → Stamp) (desk : Desk) {v : Float} {shown : Text}
    (h : evaluate (trim desk.pad.buffer) = .success v shown) (op : BinaryOperator) {w : Float}
    (hw : w.isFinite = true) (h0 : 0 ≤ w) :
    ∃ entry, (desk.dispatchAll (Dialogue.supply stamp) (continuing op w)).pad.history =
        entry :: (desk.dispatch (Dialogue.supply stamp) .evaluate).pad.history ∧
      (entry.outcome.told = (Outcome.of (Machine.outcome (Machine.run
          [.number v, .number w, .operator op.operator]))).told ↔
        (v == 0) = false ∨ op = .subtract) := by
  obtain ⟨hv, rfl⟩ := evaluate_eq_success h
  obtain ⟨hbuffer, hlast, hmessage⟩ := shows_of_evaluate stamp h
  obtain ⟨n, hn, -⟩ := exists_plain_display hv
  obtain ⟨m, hm, -⟩ := exists_plain_display hw
  have htypable := typable_behind_sign ⟨n, hn⟩ ⟨m, hm⟩ op.operator
  have htyped : typed (desk.dispatch (Dialogue.supply stamp) .evaluate).pad.lastResult
      (desk.dispatch (Dialogue.supply stamp) .evaluate).pad.buffer
        ([op.operator.sign] :: keystrokes (Layout.display.write w)) =
      keptOf (Layout.display.write v) ++ [op.operator.sign] ++ Layout.display.write w := by
    rw [hbuffer, hlast]
    exact typed_behind_result ⟨n, hn⟩ ⟨m, hm⟩ op.operator
  obtain ⟨entry, hhistory, -, houtcome⟩ :=
    exists_entry_of_keyed stamp hmessage htyped (trim_typed htypable) (by simp)
  rw [dispatchAll_continuing]
  refine ⟨entry, hhistory, ?_⟩
  rw [houtcome, Machine.outcome_run_operate]
  exact told_evaluate_behind hv hw h0

/-- The shown result -1.5 of -3/2 is continued by `*` and 0.5. -/
theorem continuing_result_quotient :
    (evaluate (trim (reached countingStamp [.append "-3/2".toList]).pad.buffer) =
        .success (-1.5) "-1.5".toList ∧ (0.5 : Float).isFinite = true ∧ (0 : Float) ≤ 0.5) ∧
    ∃ entry, ((reached countingStamp [.append "-3/2".toList]).dispatchAll
        (Dialogue.supply countingStamp) (continuing .multiply 0.5)).pad.history =
        entry :: ((reached countingStamp [.append "-3/2".toList]).dispatch
          (Dialogue.supply countingStamp) .evaluate).pad.history ∧
      entry.outcome.told = (Outcome.of (Machine.outcome (Machine.run
        [.number (-1.5), .number 0.5, .operator .multiply]))).told := by
  have hvalue : evaluate (trim (reached countingStamp [.append "-3/2".toList]).pad.buffer) =
      .success (-1.5) "-1.5".toList := by decide +kernel
  have hhalf : (0.5 : Float).isFinite = true ∧ (0 : Float) ≤ 0.5 := by decide +kernel
  obtain ⟨entry, hhistory, htold⟩ :=
    continuing_result countingStamp _ hvalue .multiply hhalf.1 hhalf.2
  exact ⟨⟨hvalue, hhalf⟩, entry, hhistory, htold.mpr (.inl (by decide +kernel))⟩

/-- The shown result 0 is lost before `+`, so that the sum of 0 and 5 lacks an operand. -/
theorem continuing_result_zero :
    (evaluate (trim (reached countingStamp [.append ['0']]).pad.buffer) = .success 0 ['0'] ∧
      (5 : Float).isFinite = true ∧ (0 : Float) ≤ 5) ∧
    (reached countingStamp ([.append ['0']] ++ continuing .add 5)).pad.history.map
        (fun entry => (entry.expression, entry.outcome)) =
      [(['+', '5'], .failure .stackUnderflow "Less than 2 operand(s) on stack"),
        (['0'], .success 0 ['0'])] ∧
    Outcome.of (Machine.outcome (Machine.run [.number 0, .number 5, .operator .add])) =
      .success 5 ['5'] := by
  decide +kernel

end DeskCalculator
