import DeskCalculator.Proofs.Reordering
import DeskCalculator.Proofs.Stages
import DeskCalculator.Proofs.TreeOfRun
import DeskCalculator.Proofs.Writings
import Mathlib.Algebra.BigOperators.Group.List.Basic

/-!
# Values of tokens that are not infix

Neither reordering nor the machine asks where a token stands, so `2 3 +` has a value, that of
`2 + 3`. What has a value is the post-order of a tree, whatever the tokens look like. Here the places
of infix tokens are followed from left to right (`Place.step`): an operand, then an operator, and so
on, and a comma only in the parentheses of a power, at most one in each. A writing has all its
tokens in place (`walk_of_writes`). The converse needs that the tokens run to one value: then no
parenthesis is left open, and no power lacks its comma, since it would leave a value too few
(`Place.due_step`). With that, what has been read is at each moment the beginning of a writing
(`Fits.step`), and the tokens of an expression that has a value are an infix writing exactly if they
are in place (`tree_of_evaluate`).
-/

namespace DeskCalculator

/-! ### Places -/

/-- What has to come next. -/
inductive Phase where
  /-- An operand, or a minus before it. -/
  | operand
  /-- The parenthesis with the arguments of a function. -/
  | arguments (name : Text)
  /-- An operator, or the end of the part. -/
  | operator
  deriving DecidableEq, Repr

/-- A place between the tokens of an expression. -/
structure Place where
  phase : Phase := .operand
  /-- For each open parenthesis, from the innermost, whether a comma may come in it. -/
  commas : List Bool := []
  deriving DecidableEq, Repr

namespace Place

/-- The place behind a token, if the token may stand at a place. -/
def step : Place → Token → Option Place
  | ⟨.operand, commas⟩, .number _ => some ⟨.operator, commas⟩
  | ⟨.operand, commas⟩, .constant _ => some ⟨.operator, commas⟩
  | ⟨.operand, commas⟩, .operator .negate => some ⟨.operand, commas⟩
  | ⟨.operand, commas⟩, .function name => some ⟨.arguments name, commas⟩
  | ⟨.operand, commas⟩, .leftParen => some ⟨.operand, false :: commas⟩
  | ⟨.arguments name, commas⟩, .leftParen =>
    some ⟨.operand, (name == Builtin.pow.name) :: commas⟩
  | ⟨.operator, _⟩, .operator .negate => none
  | ⟨.operator, commas⟩, .operator .percent => some ⟨.operator, commas⟩
  | ⟨.operator, commas⟩, .operator _ => some ⟨.operand, commas⟩
  | ⟨.operator, true :: commas⟩, .comma => some ⟨.operand, false :: commas⟩
  | ⟨.operator, _ :: commas⟩, .rightParen => some ⟨.operator, commas⟩
  | _, _ => none

/-- The steps as a relation, one case for each kind of token that may stand at a place. -/
inductive Steps : Place → Token → Place → Prop
  | number (commas : List Bool) (v : Float) :
      Steps ⟨.operand, commas⟩ (.number v) ⟨.operator, commas⟩
  | constant (commas : List Bool) (name : Text) :
      Steps ⟨.operand, commas⟩ (.constant name) ⟨.operator, commas⟩
  | negate (commas : List Bool) :
      Steps ⟨.operand, commas⟩ (.operator .negate) ⟨.operand, commas⟩
  | function (commas : List Bool) (name : Text) :
      Steps ⟨.operand, commas⟩ (.function name) ⟨.arguments name, commas⟩
  | group (commas : List Bool) :
      Steps ⟨.operand, commas⟩ .leftParen ⟨.operand, false :: commas⟩
  | arguments (commas : List Bool) (name : Text) :
      Steps ⟨.arguments name, commas⟩ .leftParen
        ⟨.operand, (name == Builtin.pow.name) :: commas⟩
  | percent (commas : List Bool) :
      Steps ⟨.operator, commas⟩ (.operator .percent) ⟨.operator, commas⟩
  | binary (commas : List Bool) (op : BinaryOperator) :
      Steps ⟨.operator, commas⟩ (.operator op.operator) ⟨.operand, commas⟩
  | comma (commas : List Bool) :
      Steps ⟨.operator, true :: commas⟩ .comma ⟨.operand, false :: commas⟩
  | close (innermost : Bool) (commas : List Bool) :
      Steps ⟨.operator, innermost :: commas⟩ .rightParen ⟨.operator, commas⟩

theorem steps_of_step {place place' : Place} {token : Token}
    (h : place.step token = some place') : Steps place token place' := by
  unfold step at h
  split at h
  case h_1 commas v => cases h; exact .number commas v
  case h_2 commas name => cases h; exact .constant commas name
  case h_3 commas => cases h; exact .negate commas
  case h_4 commas name => cases h; exact .function commas name
  case h_5 commas => cases h; exact .group commas
  case h_6 name commas => cases h; exact .arguments commas name
  case h_7 => cases h
  case h_8 commas => cases h; exact .percent commas
  case h_9 commas op hnegate hpercent =>
    cases h
    obtain ⟨b, rfl⟩ := (op.eq_or_binary.resolve_left hnegate).resolve_left hpercent
    exact .binary commas b
  case h_10 commas => cases h; exact .comma commas
  case h_11 innermost commas => cases h; exact .close innermost commas
  case h_12 => cases h

/-- The place behind tokens, if all may stand where they do. -/
def walk (place : Place) : List Token → Option Place
  | [] => some place
  | token :: tokens => (place.step token).bind fun place' => place'.walk tokens

theorem walk_append (place : Place) (first second : List Token) :
    place.walk (first ++ second) = (place.walk first).bind fun place' => place'.walk second := by
  induction first generalizing place with
  | nil => rfl
  | cons token first ih =>
    simp only [List.cons_append, walk]
    cases place.step token with
    | none => rfl
    | some place' => exact ih place'

end Place

/-- **Tokens that are in place**: each stands where an infix expression may have it, and an operand
is complete at the end. -/
def InPlace (tokens : List Token) : Prop :=
  (Place.walk {} tokens).map Place.phase = some .operator

instance (tokens : List Token) : Decidable (InPlace tokens) :=
  inferInstanceAs (Decidable (_ = _))

/-! ### Writings are in place -/

section

open Place Expression

theorem step_binary (op : BinaryOperator) (commas : List Bool) :
    step ⟨.operator, commas⟩ (.operator op.operator) = some ⟨.operand, commas⟩ := by
  cases op <;> rfl

theorem step_call (f : UnaryFunction) (commas : List Bool) :
    step ⟨.arguments f.builtin.name, commas⟩ .leftParen = some ⟨.operand, false :: commas⟩ := by
  cases f <;> rfl

/-- **A writing stands where an operand may**, in any parentheses. -/
theorem walk_of_writes {level : Nat} {e : Expression} {ts : List Token} (h : e.Writes level ts)
    (commas : List Bool) : walk ⟨.operand, commas⟩ ts = some ⟨.operator, commas⟩ := by
  induction h generalizing commas with
  | number v => rfl
  | constant k => rfl
  | negate _ _ ih => exact ih commas
  | percent _ _ ih =>
    rw [walk_append, ih]
    rfl
  | @binary _ op _ _ ls rs _ _ _ ihl ihr =>
    rw [walk_append, ihl, Option.bind_some, walk, step_binary]
    exact ihr commas
  | @call _ f _ ts _ ih =>
    rw [List.cons_append, List.cons_append, walk]
    show (walk ⟨.arguments f.builtin.name, commas⟩ (.leftParen :: (ts ++ [.rightParen]))) = _
    rw [walk, step_call, Option.bind_some, walk_append, ih]
    rfl
  | @power _ _ _ bs es _ _ ihb ihe =>
    show walk ⟨.operand, true :: commas⟩ (bs ++ .comma :: es ++ [.rightParen]) = _
    rw [List.append_assoc, walk_append, ihb]
    show walk ⟨.operand, false :: commas⟩ (es ++ [.rightParen]) = _
    rw [walk_append, ihe]
    rfl
  | @parenthesised _ _ ts _ ih =>
    show walk ⟨.operand, false :: commas⟩ (ts ++ [.rightParen]) = _
    rw [walk_append, ih]
    rfl

theorem inPlace_of_writes {e : Expression} {tokens : List Token} (h : e.Writes 0 tokens) :
    InPlace tokens := by
  unfold InPlace
  rw [walk_of_writes h []]
  rfl

end

/-! ### Parentheses -/

open ReversePolish in
/-- The parentheses with a place in them are those that are open. -/
theorem Place.nest_step {place place' : Place} {token : Token}
    (h : place.step token = some place') :
    nest place.commas.length token = .ok place'.commas.length := by
  cases steps_of_step h with
  | number => rfl
  | constant => rfl
  | negate => rfl
  | function => rfl
  | group => rfl
  | arguments => rfl
  | percent => rfl
  | binary => rfl
  | comma commas => rfl
  | close innermost commas => rfl

/-! ### Values -/

/-- The number of values that running a token adds. -/
def Token.gain : Token → Int
  | .number _ | .constant _ => 1
  | .operator op => 1 - op.operation.arity
  | .function name => (Builtin.ofName? name).elim 0 fun f => 1 - f.operation.arity
  | .leftParen | .rightParen | .comma => 0

/-- The number of values that running tokens adds. -/
def gains (tokens : List Token) : Int :=
  (tokens.map Token.gain).sum

theorem gains_append (first second : List Token) :
    gains (first ++ second) = gains first + gains second := by
  unfold gains
  rw [List.map_append, List.sum_append]

theorem gains_singleton (token : Token) : gains [token] = token.gain := by
  unfold gains
  rw [List.map_singleton, List.sum_singleton]

theorem gain_binary (op : BinaryOperator) : (Token.operator op.operator).gain = -1 := by
  cases op <;> rfl

theorem gain_function (name : Text) :
    (Token.function name).gain = if name == Builtin.pow.name then -1 else 0 := by
  unfold Token.gain
  cases h : Builtin.ofName? name with
  | none =>
    rw [if_neg]
    · simp only [h, Option.elim_none]
    · intro hname
      rw [Builtin.ofName?_eq_some_iff.mpr (eq_of_beq hname).symm] at h
      cases h
  | some f =>
    obtain rfl := Builtin.ofName?_eq_some_iff.mp h
    cases f <;> decide

/-- **The words of a tree leave one value.** -/
theorem gains_postOrder (e : Expression) : gains e.postOrder = 1 := by
  induction e with
  | number v => rfl
  | constant k => rfl
  | negate e ih =>
    rw [Expression.postOrder, gains_append, ih]
    rfl
  | percent e ih =>
    rw [Expression.postOrder, gains_append, ih]
    rfl
  | binary op l r ihl ihr =>
    rw [Expression.postOrder, gains_append, gains_append, ihl, ihr, gains_singleton, gain_binary]
    rfl
  | call f a ih =>
    rw [Expression.postOrder, gains_append, ih, gains_singleton, gain_function]
    cases f <;> rfl
  | power b e ihb ihe =>
    rw [Expression.postOrder, gains_append, gains_append, ihb, ihe, gains_singleton, gain_function]
    rfl

theorem gains_filter_isWord (tokens : List Token) :
    gains (tokens.filter Token.isWord) = gains tokens := by
  induction tokens with
  | nil => rfl
  | cons token tokens ih =>
    rw [← List.singleton_append, List.filter_append, gains_append, gains_append, ih]
    cases token <;> rfl

theorem gains_of_ofTokens {tokens ordered : List Token}
    (h : ReversePolish.ofTokens tokens = .ok ordered) : gains ordered = gains tokens := by
  rw [← gains_filter_isWord tokens]
  exact ((ReversePolish.perm_of_ofTokens h).map Token.gain).sum_eq

/-- The number of values that tokens up to a place leave if no power behind them lacks its comma. -/
def Place.due (place : Place) : Int :=
  (match place.phase with
    | .operand => 0
    | .arguments name => (Token.function name).gain
    | .operator => 1) - place.commas.count true

/-- **A token in place leaves no value too many**, and it leaves one too few only where it closes the
parentheses of a power before their comma. -/
theorem Place.due_step {place place' : Place} {token : Token}
    (h : place.step token = some place') : place.due + token.gain ≤ place'.due := by
  cases steps_of_step h with
  | number => simp only [due, Token.gain]; omega
  | constant => simp only [due, Token.gain]; omega
  | negate => simp [due, Token.gain, Operator.operation, Operation.arity]
  | function => simp only [due]; omega
  | group => simp [due, Token.gain]
  | arguments commas name =>
    show (Token.function name).gain - commas.count true + 0 ≤
      0 - ((name == Builtin.pow.name) :: commas).count true
    rw [gain_function, List.count_cons]
    cases name == Builtin.pow.name <;> simp
  | percent => simp [due, Token.gain, Operator.operation, Operation.arity]
  | binary commas op =>
    simp only [due, gain_binary]
    omega
  | comma => simp [due, Token.gain]
  | close innermost commas =>
    simp only [due, Token.gain, List.count_cons]
    split <;> omega

/-! ### Beginnings of writings -/

/-- **The beginning of a writing up to its innermost open parenthesis**, or up to the comma in it.
What stands between two open parentheses waits for an operand, which the inner one begins. -/
inductive Opened : List Bool → List Token → Prop
  | nil : Opened [] []
  | group {commas : List Bool} {outer part : List Token} (h : Opened commas outer)
      (hpart : Awaits part) : Opened (false :: commas) (outer ++ part ++ [.leftParen])
  | call {commas : List Bool} {outer part : List Token} (f : UnaryFunction)
      (h : Opened commas outer) (hpart : Awaits part) :
      Opened (false :: commas) (outer ++ part ++ [.function f.builtin.name] ++ [.leftParen])
  | base {commas : List Bool} {outer part : List Token} (h : Opened commas outer)
      (hpart : Awaits part) :
      Opened (true :: commas) (outer ++ part ++ [.function Builtin.pow.name] ++ [.leftParen])
  | exponent {commas : List Bool} {outer part base : List Token} (h : Opened commas outer)
      (hpart : Awaits part) (hbase : Complete base) :
      Opened (false :: commas)
        (outer ++ part ++ [.function Builtin.pow.name] ++ [.leftParen] ++ base ++ [.comma])

variable {commas : List Bool} {outer part read : List Token}

theorem Opened.comma (h : Opened (true :: commas) outer) (hpart : Complete part) :
    Opened (false :: commas) (outer ++ part ++ [.comma]) := by
  cases h with
  | base h hbefore => exact .exponent h hbefore hpart

theorem Opened.close (h : Opened (false :: commas) outer) (hpart : Complete part) :
    ∃ outer' part', Opened commas outer' ∧ Complete part' ∧
      outer ++ part ++ [.rightParen] = outer' ++ part' := by
  obtain ⟨e, he⟩ := hpart
  cases h with
  | @group _ outer' before h hbefore =>
    refine ⟨outer', _, h, hbefore _ _ (.parenthesised he), ?_⟩
    simp only [List.append_assoc, List.cons_append, List.nil_append]
  | @call _ outer' before f h hbefore =>
    refine ⟨outer', _, h, hbefore _ _ (.call (f := f) he), ?_⟩
    simp only [List.append_assoc, List.cons_append, List.nil_append]
  | @exponent _ outer' before base h hbefore hbase =>
    obtain ⟨b, hb⟩ := hbase
    refine ⟨outer', _, h, hbefore _ _ (.power hb he), ?_⟩
    simp only [List.append_assoc, List.cons_append, List.nil_append]

/-- **The beginning of a writing up to a place.** -/
inductive Fits : Place → List Token → Prop
  | operand {commas : List Bool} {outer part : List Token} (h : Opened commas outer)
      (hpart : Awaits part) : Fits ⟨.operand, commas⟩ (outer ++ part)
  | arguments {commas : List Bool} {outer part : List Token} (f : Builtin)
      (h : Opened commas outer) (hpart : Awaits part) :
      Fits ⟨.arguments f.name, commas⟩ (outer ++ part ++ [.function f.name])
  | operator {commas : List Bool} {outer part : List Token} (h : Opened commas outer)
      (hpart : Complete part) : Fits ⟨.operator, commas⟩ (outer ++ part)

theorem Fits.atom {token : Token} {e : Expression} (h : Fits ⟨.operand, commas⟩ read)
    (htoken : e.Writes 5 [token]) : Fits ⟨.operator, commas⟩ (read ++ [token]) := by
  cases h with
  | operand h hpart =>
    rw [List.append_assoc]
    exact .operator h (hpart e [token] htoken)

theorem Fits.begin (h : Opened commas read) : Fits ⟨.operand, commas⟩ read := by
  have hbegin := Fits.operand h awaits_nil
  rwa [List.append_nil] at hbegin

/-- Outside all parentheses nothing but a writing stands before an operator. -/
theorem Fits.complete (h : Fits ⟨.operator, []⟩ read) : Complete read := by
  cases h with
  | operator h hpart =>
    cases h
    exact hpart

/-- **One token in place goes on with a writing**, unless it closes the parentheses of a power before
their comma. -/
theorem Fits.step {place place' : Place} {token : Token} (h : Fits place read)
    (hknown : token.IsKnown) (hstep : place.step token = some place')
    (hdue : place.due + token.gain = place'.due) : Fits place' (read ++ [token]) := by
  cases Place.steps_of_step hstep with
  | number commas v => exact h.atom (.number v)
  | constant commas name =>
    obtain ⟨k, rfl⟩ := hknown
    exact h.atom (.constant k)
  | negate commas =>
    cases h with
    | operand h hpart =>
      rw [List.append_assoc]
      exact .operand h hpart.negate
  | function commas name =>
    obtain ⟨f, rfl⟩ := hknown
    cases h with
    | operand h hpart => exact .arguments f h hpart
  | group commas =>
    cases h with
    | operand h hpart => exact .begin (.group h hpart)
  | arguments commas name =>
    cases h with
    | arguments f h hpart =>
      rcases f.eq_or_unary with rfl | ⟨g, rfl⟩
      · exact .begin (.base h hpart)
      · have hname : (g.builtin.name == Builtin.pow.name) = false := by cases g <;> rfl
        rw [hname]
        exact .begin (.call g h hpart)
  | percent commas =>
    cases h with
    | operator h hpart =>
      rw [List.append_assoc]
      exact .operator h hpart.percent
  | binary commas op =>
    cases h with
    | operator h hpart =>
      rw [List.append_assoc]
      exact .operand h (hpart.binary op)
  | comma commas =>
    cases h with
    | operator h hpart => exact .begin (h.comma hpart)
  | close innermost commas =>
    cases innermost with
    | true =>
      simp only [Place.due, Token.gain, List.count_cons_self] at hdue
      omega
    | false =>
      cases h with
      | operator h hpart =>
        obtain ⟨outer', part', h', hpart', heq⟩ := h.close hpart
        rw [heq]
        exact .operator h' hpart'

/-! ### Whole expressions -/

/-- **The invariant of reading tokens in place.** They leave no value too many, and where they leave
none too few they begin a writing. -/
structure Sound (place : Place) (read : List Token) : Prop where
  le : gains read ≤ place.due
  fits : gains read = place.due → Fits place read

theorem sound_nil : Sound {} [] :=
  ⟨le_rfl, fun _ => .begin .nil⟩

theorem Sound.step {place place' : Place} {token : Token} (h : Sound place read)
    (hknown : token.IsKnown) (hstep : place.step token = some place') :
    Sound place' (read ++ [token]) := by
  have hle := h.le
  have hdue := Place.due_step hstep
  have hgains : gains (read ++ [token]) = gains read + token.gain := by
    rw [gains_append, gains_singleton]
  refine ⟨by omega, fun heq => ?_⟩
  have hfits : Fits place read := h.fits (by omega)
  exact hfits.step hknown hstep (by omega)

/-- **Tokens in place**, from any place: the parentheses are counted, and the invariant is kept. -/
theorem Sound.walk {place place' : Place} {tokens : List Token} (h : Sound place read)
    (hknown : ∀ token ∈ tokens, token.IsKnown) (hwalk : place.walk tokens = some place') :
    ReversePolish.nestAll place.commas.length tokens = .ok place'.commas.length ∧
      Sound place' (read ++ tokens) := by
  induction tokens generalizing place read with
  | nil =>
    cases hwalk
    exact ⟨rfl, by rwa [List.append_nil]⟩
  | cons token tokens ih =>
    obtain ⟨htoken, htokens⟩ := List.forall_mem_cons.mp hknown
    obtain ⟨middle, hstep, hrest⟩ := Option.bind_eq_some_iff.mp hwalk
    obtain ⟨hnest, hsound⟩ := ih (h.step htoken hstep) htokens hrest
    rw [List.append_assoc] at hsound
    refine ⟨?_, hsound⟩
    rw [ReversePolish.nestAll, Place.nest_step hstep]
    exact hnest

/-- **Tokens in place that are reordered to a tree are a writing.** -/
theorem complete_of_inPlace {tokens : List Token} {e : Expression} (h : InPlace tokens)
    (hknown : ∀ token ∈ tokens, token.IsKnown)
    (hordered : ReversePolish.ofTokens tokens = .ok e.postOrder) : Complete tokens := by
  obtain ⟨⟨phase, commas⟩, hwalk, hphase⟩ := Option.map_eq_some_iff.mp h
  obtain rfl : phase = .operator := hphase
  obtain ⟨hnest, hsound⟩ := sound_nil.walk hknown hwalk
  have hclosed : Except.ok commas.length = Except.ok 0 :=
    hnest.symm.trans (ReversePolish.nestAll_of_ofTokens hordered)
  obtain rfl : commas = [] := List.length_eq_zero_iff.mp (Except.ok.inj hclosed)
  have hgains : gains tokens = 1 := by
    rw [← gains_of_ofTokens hordered, gains_postOrder]
  have hfits : Fits ⟨.operator, []⟩ tokens := hsound.fits hgains
  exact hfits.complete

/-- **What has a value.** The tokens of an expression that has a value are reordered to the
post-order of a tree with this value. If they are in place they are an infix writing of the tree, and
otherwise they are a writing of none. -/
theorem tree_of_evaluate {text shown : Text} {v : Float}
    (h : evaluate text = .success v shown) :
    ∃ (tokens : List Token) (e : Expression), Reads text tokens ∧
      ReversePolish.ofTokens tokens = .ok e.postOrder ∧ e.value = .ok v ∧
      (InPlace tokens → e.Writes 0 tokens) ∧
      ∀ e' : Expression, e'.Writes 0 tokens → InPlace tokens := by
  obtain ⟨ordered, horders, hrun⟩ := exists_orders_of_evaluate h
  obtain ⟨e, rfl, hvalue⟩ := Machine.exists_postOrder_of_run horders.words hrun
  obtain ⟨tokens, hreads, hordered⟩ := horders
  by_cases hplace : InPlace tokens
  · obtain ⟨e', hwrites⟩ :=
      complete_of_inPlace hplace (Token.isKnown_of_tokenize hreads.2) hordered
    have hordered' := ReversePolish.ofTokens_of_writes hwrites
    have hpost : e'.postOrder = e.postOrder := Except.ok.inj (hordered'.symm.trans hordered)
    refine ⟨tokens, e', hreads, hordered', ?_, fun _ => hwrites, fun _ _ => hplace⟩
    rw [← Machine.outcome_run_postOrder e', hpost, Machine.outcome_run_postOrder e, hvalue]
  · exact ⟨tokens, e, hreads, hordered, hvalue, fun h => absurd h hplace,
      fun _ hwrites => inPlace_of_writes hwrites⟩

/-- The tree of `-(1+2)/4`. -/
theorem tree_of_evaluate_quotient :
    evaluate "-(1+2)/4".toList = .success (-0.75) "-0.75".toList ∧
    ∃ e : Expression, e.value = .ok (-0.75) ∧ e.Writes 0 [.operator .negate, .leftParen, .number 1,
      .operator .add, .number 2, .rightParen, .operator .divide, .number 4] := by
  have h : evaluate "-(1+2)/4".toList = .success (-0.75) "-0.75".toList := by decide +kernel
  have htokens : Token.tokenize "-(1+2)/4".toList = .ok [.operator .negate, .leftParen, .number 1,
      .operator .add, .number 2, .rightParen, .operator .divide, .number 4] := by decide +kernel
  obtain ⟨tokens, e, ⟨-, hreads⟩, -, hvalue, hwrites, -⟩ := tree_of_evaluate h
  obtain rfl := Except.ok.inj (htokens.symm.trans hreads)
  exact ⟨h, e, hvalue, hwrites (by decide +kernel)⟩

/-- The operator of `2 3 +` follows its operands, which no infix writing has. -/
theorem evaluate_two_three_plus :
    evaluate "2 3 +".toList = .success 5 ['5'] ∧
    ∃ tokens, Reads "2 3 +".toList tokens ∧ ¬ ∃ e : Expression, e.Writes 0 tokens := by
  refine ⟨by decide +kernel, [.number 2, .number 3, .operator .add],
    ⟨by decide +kernel, by decide +kernel⟩, ?_⟩
  rintro ⟨e, hwrites⟩
  exact absurd (inPlace_of_writes hwrites) (by decide +kernel)

end DeskCalculator
