import DeskCalculator.Proofs.Expression
import DeskCalculator.Proofs.Keypad.Typing

/-!
# Expressions spelled as texts

The tokens of an expression are spelled one after another, without blanks: a number by a numeral
that is worth it, both minuses by the same sign (`Spelled`). In the text of an infix writing a left
parenthesis never stands where a product would be implied (`noProduct_of_writes`), and a number at
its beginning is followed by the sign of an operator or by nothing (`exists_numeral_of_writes`).
-/

namespace DeskCalculator

/-- How an operator is typed. -/
def Operator.sign : Operator → Char
  | add => '+'
  | subtract | negate => '-'
  | multiply => '*'
  | divide => '/'
  | percent => '%'

/-- **The spellings of a token.** A number has many. -/
inductive Spells : Token → Text → Prop
  | number {v : Float} {numeral : Text} (h : Numeral.read? numeral = some v) :
      Spells (.number v) numeral
  | operator (op : Operator) : Spells (.operator op) [op.sign]
  | function (f : Builtin) : Spells (.function f.name) f.name
  | constant (k : Constant) : Spells (.constant k.name) k.name
  | leftParen : Spells .leftParen ['(']
  | rightParen : Spells .rightParen [')']
  | comma : Spells .comma [',']

/-- **The spellings of tokens**, one behind the other. -/
inductive Spelled : List Token → Text → Prop
  | nil : Spelled [] []
  | cons {token : Token} {tokens : List Token} {word rest : Text} (hword : Spells token word)
      (hrest : Spelled tokens rest) : Spelled (token :: tokens) (word ++ rest)

variable {token : Token} {tokens : List Token} {text : Text}

theorem Spelled.exists_cons (h : Spelled (token :: tokens) text) :
    ∃ word rest, text = word ++ rest ∧ Spells token word ∧ Spelled tokens rest := by
  cases h with
  | cons hword hrest => exact ⟨_, _, rfl, hword, hrest⟩

theorem Spelled.exists_append {first second : List Token} (h : Spelled (first ++ second) text) :
    ∃ a b, text = a ++ b ∧ Spelled first a ∧ Spelled second b := by
  induction first generalizing text with
  | nil => exact ⟨[], text, rfl, .nil, h⟩
  | cons token first ih =>
    obtain ⟨word, rest, rfl, hword, hrest⟩ := h.exists_cons
    obtain ⟨a, b, rfl, ha, hb⟩ := ih hrest
    exact ⟨word ++ a, b, (List.append_assoc ..).symm, .cons hword ha, hb⟩

/-! ### Characters of a spelling -/

theorem isMargin_eq_false_of_all (h : text.all (!isMargin ·) = true) :
    ∀ c ∈ text, isMargin c = false := by
  intro c hc
  simpa only [Bool.not_eq_true'] using List.all_eq_true.mp h c hc

theorem isMargin_of_spells (h : Spells token text) : ∀ c ∈ text, isMargin c = false := by
  cases h with
  | number h => exact fun c hc => isMargin_of_isNumeric (Numeral.isNumeric_of_read? h c hc)
  | operator op => exact isMargin_eq_false_of_all (by cases op <;> decide +kernel)
  | function f => exact isMargin_eq_false_of_all (by cases f <;> decide +kernel)
  | constant k => exact isMargin_eq_false_of_all (by cases k <;> decide +kernel)
  | leftParen => exact isMargin_eq_false_of_all (by decide +kernel)
  | rightParen => exact isMargin_eq_false_of_all (by decide +kernel)
  | comma => exact isMargin_eq_false_of_all (by decide +kernel)

theorem isMargin_of_spelled (h : Spelled tokens text) : ∀ c ∈ text, isMargin c = false := by
  induction h with
  | nil => exact fun c hc => absurd hc List.not_mem_nil
  | cons hword _ ih =>
    intro c hc
    rcases List.mem_append.mp hc with hc | hc
    · exact isMargin_of_spells hword c hc
    · exact ih c hc

theorem ne_nil_of_spells (h : Spells token text) : text ≠ [] := by
  cases h with
  | number h => exact Numeral.ne_nil_of_read? h
  | operator op => exact List.cons_ne_nil _ _
  | function f => cases f <;> exact List.cons_ne_nil _ _
  | constant k => cases k <;> exact List.cons_ne_nil _ _
  | leftParen => exact List.cons_ne_nil _ _
  | rightParen => exact List.cons_ne_nil _ _
  | comma => exact List.cons_ne_nil _ _

theorem ne_nil_of_spelled (h : Spelled tokens text) (hne : tokens ≠ []) : text ≠ [] := by
  cases h with
  | nil => exact absurd rfl hne
  | cons hword _ => exact List.append_ne_nil_of_left_ne_nil (ne_nil_of_spells hword) _

theorem number_of_spells_zero {rest : Text} (h : Spells token ('0' :: rest)) :
    ∃ v, token = .number v ∧ Numeral.read? ('0' :: rest) = some v := by
  generalize hword : '0' :: rest = word at h
  cases h with
  | number hread => exact ⟨_, rfl, hread⟩
  | operator op => cases op <;> exact absurd (List.cons.inj hword).1 (by decide)
  | function f => cases f <;> exact absurd (List.cons.inj hword).1 (by decide)
  | constant k => cases k <;> exact absurd (List.cons.inj hword).1 (by decide)
  | leftParen => exact absurd (List.cons.inj hword).1 (by decide)
  | rightParen => exact absurd (List.cons.inj hword).1 (by decide)
  | comma => exact absurd (List.cons.inj hword).1 (by decide)

/-! ### Left parentheses -/

/-- No left parenthesis of a text behind another one implies a product. -/
def NoProduct (before text : Text) : Prop :=
  ∀ first rest, text = first ++ '(' :: rest → impliesProduct (before ++ first) = false

theorem noProduct_of_not_mem {before : Text} (h : '(' ∉ text) : NoProduct before text := by
  rintro first rest rfl
  exact absurd (List.mem_append_right _ List.mem_cons_self) h

theorem noProduct_leftParen {before : Text} (h : impliesProduct before = false) :
    NoProduct before ['('] := by
  intro first rest heq
  cases first with
  | nil => rwa [List.append_nil]
  | cons c first => simp at heq

theorem NoProduct.append {before first second : Text} (h : NoProduct before first)
    (h' : NoProduct (before ++ first) second) : NoProduct before (first ++ second) := by
  intro front rest heq
  rcases List.append_eq_append_iff.mp heq with ⟨middle, rfl, hsecond⟩ | ⟨middle, rfl, hmiddle⟩
  · rw [← List.append_assoc]
    exact h' middle rest hsecond
  · cases middle with
    | nil =>
      rw [List.append_nil] at h'
      have hempty := h' [] rest hmiddle.symm
      rwa [List.append_nil] at hempty
    | cons c middle =>
      obtain ⟨rfl, -⟩ := List.cons.inj hmiddle
      exact h front middle rfl

theorem leftParen_not_mem (h : Spells token text) (hne : token ≠ .leftParen) : '(' ∉ text := by
  cases h with
  | number h =>
    intro hmem
    exact absurd (Numeral.isNumeric_of_read? h _ hmem) (by decide +kernel)
  | operator op => cases op <;> decide
  | function f => cases f <;> decide
  | constant k => cases k <;> decide
  | leftParen => exact absurd rfl hne
  | rightParen => decide
  | comma => decide

/-- A token behind which no product is implied. -/
def Opens (token : Token) : Prop :=
  ∀ word, Spells token word → trimRight word ≠ [] ∧ impliesProduct word = false

theorem opens_operator (op : Operator) : Opens (.operator op) := by
  intro word h
  cases h
  cases op <;> decide +kernel

theorem opens_function (name : Text) : Opens (.function name) := by
  intro word h
  cases h with
  | function f => cases f <;> decide +kernel

theorem opens_leftParen : Opens .leftParen := by
  intro word h
  cases h
  decide +kernel

theorem opens_comma : Opens .comma := by
  intro word h
  cases h
  decide +kernel

/-- In every spelling of the tokens no left parenthesis implies a product, if what is before does
not imply one. -/
def Clean (tokens : List Token) : Prop :=
  ∀ before text, Spelled tokens text → impliesProduct before = false → NoProduct before text

theorem noProduct_of_spells {before : Text} (h : Spells token text)
    (hbefore : token = .leftParen → impliesProduct before = false) : NoProduct before text := by
  by_cases hparen : token = .leftParen
  · subst hparen
    cases h
    exact noProduct_leftParen (hbefore rfl)
  · exact noProduct_of_not_mem (leftParen_not_mem h hparen)

theorem clean_nil : Clean [] := by
  intro before text hspell _
  cases hspell
  exact noProduct_of_not_mem List.not_mem_nil

theorem clean_singleton (token : Token) : Clean [token] := by
  intro before text hspell hbefore
  obtain ⟨word, rest, rfl, hword, hrest⟩ := hspell.exists_cons
  cases hrest
  rw [List.append_nil]
  exact noProduct_of_spells hword fun _ => hbefore

theorem Clean.cons (hopens : Opens token) (h : Clean tokens) : Clean (token :: tokens) := by
  intro before text hspell hbefore
  obtain ⟨word, rest, rfl, hword, hrest⟩ := hspell.exists_cons
  obtain ⟨hne, hword'⟩ := hopens word hword
  refine (noProduct_of_spells hword fun _ => hbefore).append (h _ rest hrest ?_)
  rw [impliesProduct_append, if_neg hne, hword']

/-- Behind an operand comes a token that is no left parenthesis, and more if that token opens. -/
theorem Clean.append_cons {first : List Token} (hfirst : Clean first) (hne : token ≠ .leftParen)
    (h : Clean tokens) (hopens : tokens = [] ∨ Opens token) : Clean (first ++ token :: tokens) := by
  intro before text hspell hbefore
  obtain ⟨a, b, rfl, ha, hb⟩ := hspell.exists_append
  obtain ⟨word, rest, rfl, hword, hrest⟩ := hb.exists_cons
  refine (hfirst before a ha hbefore).append
    ((noProduct_of_spells hword fun hparen => absurd hparen hne).append ?_)
  rcases hopens with rfl | hopens
  · cases hrest
    exact noProduct_of_not_mem List.not_mem_nil
  · obtain ⟨hword', hproduct⟩ := hopens word hword
    refine h _ rest hrest ?_
    rw [impliesProduct_append, if_neg hword', hproduct]

theorem Clean.enclose (h : Clean tokens) : Clean (.leftParen :: tokens ++ [.rightParen]) :=
  .cons opens_leftParen (h.append_cons nofun clean_nil (.inl rfl))

/-- **In an infix writing no left parenthesis implies a product.** -/
theorem clean_of_writes {level : Nat} {e : Expression} (h : Expression.Writes level e tokens) :
    Clean tokens := by
  induction h with
  | number v => exact clean_singleton _
  | constant k => exact clean_singleton _
  | negate hl he ih => exact .cons (opens_operator _) ih
  | percent hl he ih => exact ih.append_cons nofun clean_nil (.inl rfl)
  | binary hl hleft hright ihl ihr => exact ihl.append_cons nofun ihr (.inr (opens_operator _))
  | call ha ih => exact .cons (opens_function _) ih.enclose
  | @power level b e bs es hb he ihb ihe =>
    have hboth : Clean (bs ++ .comma :: es) := ihb.append_cons nofun ihe (.inr opens_comma)
    have hpower := Clean.cons (opens_function Builtin.pow.name) hboth.enclose
    rwa [show Token.function Builtin.pow.name :: .leftParen :: bs ++ .comma :: es ++ [.rightParen] =
      .function Builtin.pow.name :: (.leftParen :: (bs ++ .comma :: es) ++ [.rightParen]) by simp]
  | parenthesised he ih => exact ih.enclose

/-! ### The first number -/

theorem ne_nil_of_writes {level : Nat} {e : Expression} (h : Expression.Writes level e tokens) :
    tokens ≠ [] := by
  cases h <;> simp

/-- A number at the beginning is followed by an operator or by nothing. -/
def NumberFirst (tokens : List Token) : Prop :=
  ∀ v rest, tokens = .number v :: rest → ∀ next ∈ rest.head?, ∃ op, next = .operator op

theorem numberFirst_cons (h : ∀ v, token ≠ .number v) : NumberFirst (token :: tokens) :=
  fun v _ heq => absurd (List.cons.inj heq).1 (h v)

theorem NumberFirst.append {first : List Token} (h : NumberFirst first) (hne : first ≠ [])
    (op : Operator) (rest : List Token) : NumberFirst (first ++ .operator op :: rest) := by
  intro v after heq next hnext
  cases first with
  | nil => exact absurd rfl hne
  | cons token first =>
    obtain ⟨rfl, rfl⟩ := List.cons.inj heq
    cases first with
    | nil => exact ⟨op, (Option.some.inj hnext).symm⟩
    | cons token first => exact h v _ rfl next hnext

/-- **In an infix writing** a number at the beginning is followed by an operator or by nothing. -/
theorem numberFirst_of_writes {level : Nat} {e : Expression}
    (h : Expression.Writes level e tokens) : NumberFirst tokens := by
  induction h with
  | number v =>
    intro w rest heq next hnext
    obtain ⟨-, rfl⟩ := List.cons.inj heq
    cases hnext
  | percent hl he ih => exact ih.append (ne_nil_of_writes he) _ _
  | binary hl hleft hright ihl ihr => exact ihl.append (ne_nil_of_writes hleft) _ _
  | constant k => exact numberFirst_cons nofun
  | negate hl he ih => exact numberFirst_cons nofun
  | call ha ih => exact numberFirst_cons nofun
  | power hb he ihb ihe => exact numberFirst_cons nofun
  | parenthesised he ih => exact numberFirst_cons nofun

theorem isOperatorSign_sign (op : Operator) : isOperatorSign op.sign = true := by
  cases op <;> rfl

/-- The text of an infix writing that begins with a zero begins with a numeral, behind which stands
the sign of an operator or nothing. -/
theorem exists_numeral_of_writes {level : Nat} {e : Expression}
    (h : Expression.Writes level e tokens) (hspell : Spelled tokens text)
    (hzero : text.head? = some '0') :
    ∃ numeral rest v, text = numeral ++ rest ∧ Numeral.read? numeral = some v ∧
      ∀ c ∈ rest.head?, isOperatorSign c = true := by
  cases hspell with
  | nil => exact absurd rfl (ne_nil_of_writes h)
  | @cons token tokens word rest hword hrest =>
    cases word with
    | nil => exact absurd rfl (ne_nil_of_spells hword)
    | cons c word =>
      obtain rfl : c = '0' := Option.some.inj hzero
      obtain ⟨v, rfl, hread⟩ := number_of_spells_zero hword
      refine ⟨_, rest, v, rfl, hread, fun c hc => ?_⟩
      cases hrest with
      | nil => cases hc
      | cons hnext hrest' =>
        obtain ⟨op, rfl⟩ := numberFirst_of_writes h v _ rfl _ rfl
        cases hnext
        obtain rfl := Option.some.inj hc
        exact isOperatorSign_sign op

end DeskCalculator
