import DeskCalculator.Console.Dump
import DeskCalculator.Proofs.Number.Trace
import DeskCalculator.Proofs.Reordering
import DeskCalculator.Proofs.Token.Lexemes

/-!
# A dumped order determines the result

A token that a text can have is told by its text (`Token.eq_of_text_eq`): the operators, names and
punctuation marks have texts of their own, only a number begins with a digit or is infinite, and two
numbers that are written alike are the same. None of these texts is empty or has a space, so the
texts with a space between neighbours tell all tokens (`Token.eq_of_texts_eq`). What is reordered
has words of the text only. So a dump of the reverse Polish order tells what the machine is given
(`dumped_order_determines`).
-/

namespace DeskCalculator

open Binary64

namespace Token

variable {token token' : Token} {tokens tokens' : List Token} {word word' : Text}

/-- A token that is spelled somehow. -/
def IsSpelled (token : Token) : Prop :=
  ∃ word, Spells token word

/-! ### The texts of tokens -/

/-- The tokens that are no numbers. -/
def signsAndNames : List Token :=
  [Operator.add, Operator.subtract, Operator.multiply, Operator.divide, Operator.percent,
    Operator.negate].map operator ++ [leftParen, rightParen, comma] ++
    Builtin.all.map (function ·.name) ++ Constant.all.map (constant ·.name)

/-- What begins as a number does in dumps: with a digit, or as the infinite one. -/
def beginsAsNumber (text : Text) : Bool :=
  text.head?.any fun c => c.isDigit || c == 'i'

theorem exists_code_or_mem (h : token.IsSpelled) :
    (∃ c, c ≤ infinityCode ∧ token = .number (ofCode false c)) ∨ token ∈ signsAndNames := by
  obtain ⟨word, h⟩ := h
  cases h with
  | number hread =>
    obtain ⟨whole, decimals, -, -, -, rfl, -⟩ := Numeral.exists_of_read? hread
    exact .inl ⟨_, Nat.min_le_left _ _, rfl⟩
  | operator op => exact .inr (by cases op <;> decide +kernel)
  | function f => exact .inr (by cases f <;> decide +kernel)
  | constant k => exact .inr (by cases k <;> decide +kernel)
  | leftParen => exact .inr (by decide +kernel)
  | rightParen => exact .inr (by decide +kernel)
  | comma => exact .inr (by decide +kernel)

theorem beginsAsNumber_number {c : Nat} (hc : c ≤ infinityCode) :
    beginsAsNumber (number (ofCode false c)).text = true := by
  rcases Nat.lt_or_eq_of_le hc with hlt | rfl
  · obtain ⟨n, htext, -⟩ := exists_scaled_trace hlt
    obtain ⟨digit, rest, hcons, hdigit⟩ := n.exists_digit_text
    rw [text, ← htext, hcons, beginsAsNumber, List.head?_cons, Option.any_some, hdigit,
      Bool.true_or]
  · rw [text, trace_infinity]
    rfl

theorem beginsAsNumber_of_mem (h : token ∈ signsAndNames) : beginsAsNumber token.text = false := by
  have hall : signsAndNames.all (fun token => !beginsAsNumber token.text) = true := by
    decide +kernel
  simpa using List.all_eq_true.mp hall token h

theorem eq_of_text_eq (h : token.IsSpelled) (h' : token'.IsSpelled)
    (htext : token.text = token'.text) : token = token' := by
  rcases exists_code_or_mem h with ⟨c, hc, rfl⟩ | hmem
  · rcases exists_code_or_mem h' with ⟨c', hc', rfl⟩ | hmem'
    · rw [code_eq_of_trace_eq hc hc' htext]
    · have hbegins := beginsAsNumber_number hc
      rw [htext, beginsAsNumber_of_mem hmem'] at hbegins
      cases hbegins
  · rcases exists_code_or_mem h' with ⟨c', hc', rfl⟩ | hmem'
    · have hbegins := beginsAsNumber_number hc'
      rw [← htext, beginsAsNumber_of_mem hmem] at hbegins
      cases hbegins
    · have hnodup : (signsAndNames.map text).Nodup := by decide +kernel
      exact List.inj_on_of_nodup_map hnodup hmem hmem' htext

theorem isolated_text (h : token.IsSpelled) : token.text ≠ [] ∧ ' ' ∉ token.text := by
  rcases exists_code_or_mem h with ⟨c, hc, rfl⟩ | hmem
  · rcases Nat.lt_or_eq_of_le hc with hlt | rfl
    · obtain ⟨n, htext, -⟩ := exists_scaled_trace hlt
      obtain ⟨digit, rest, hcons, -⟩ := n.exists_digit_text
      rw [text, ← htext]
      refine ⟨?_, n.not_mem_text (by decide) (by decide)⟩
      rw [hcons]
      exact List.cons_ne_nil _ _
    · rw [text, trace_infinity]
      decide
  · have hall : signsAndNames.all (fun token => decide (token.text ≠ [] ∧ ' ' ∉ token.text)) =
        true := by decide +kernel
    exact of_decide_eq_true (List.all_eq_true.mp hall token hmem)

/-! ### The texts of a list of tokens -/

theorem eq_of_map_text_eq (h : ∀ token ∈ tokens, token.IsSpelled)
    (h' : ∀ token ∈ tokens', token.IsSpelled) (htext : tokens.map text = tokens'.map text) :
    tokens = tokens' := by
  induction tokens generalizing tokens' with
  | nil => exact (List.map_eq_nil_iff.mp htext.symm).symm
  | cons token tokens ih =>
    cases tokens' with
    | nil => cases htext
    | cons token' tokens' =>
      obtain ⟨htoken, htokens⟩ := List.forall_mem_cons.mp h
      obtain ⟨htoken', htokens'⟩ := List.forall_mem_cons.mp h'
      obtain ⟨hhead, htail⟩ := List.cons.inj htext
      rw [eq_of_text_eq htoken htoken' hhead, ih htokens htokens' htail]

/-- A space that is put between texts is where they are cut again. -/
theorem splitOn_texts (h : ∀ token ∈ tokens, token.IsSpelled) (hne : tokens ≠ []) :
    List.splitOn ' ' (texts tokens) = tokens.map text := by
  refine List.splitOn_intercalate ' ' (fun word hword => ?_) (by simpa using hne)
  obtain ⟨token, htoken, rfl⟩ := List.mem_map.mp hword
  exact (isolated_text (h token htoken)).2

theorem texts_ne_nil (h : ∀ token ∈ tokens, token.IsSpelled) (hne : tokens ≠ []) :
    texts tokens ≠ [] := by
  obtain ⟨token, tokens, rfl⟩ := List.exists_cons_of_ne_nil hne
  have hfirst := (isolated_text (h token List.mem_cons_self)).1
  unfold texts
  cases tokens <;> simp [hfirst]

/-- **Tokens are told by their texts with a space between neighbours.** -/
theorem eq_of_texts_eq (h : ∀ token ∈ tokens, token.IsSpelled)
    (h' : ∀ token ∈ tokens', token.IsSpelled) (htexts : texts tokens = texts tokens') :
    tokens = tokens' := by
  -- A list of no tokens and one of an empty text would be written alike, so it is set apart.
  by_cases hnil : tokens = []
  · by_contra hne
    rw [hnil] at htexts hne
    exact texts_ne_nil h' (Ne.symm hne) htexts.symm
  by_cases hnil' : tokens' = []
  · rw [hnil'] at htexts
    exact absurd htexts (texts_ne_nil h hnil)
  refine eq_of_map_text_eq h h' ?_
  rw [← splitOn_texts h hnil, ← splitOn_texts h' hnil', htexts]

end Token

/-! ### Dumped orders -/

open Token

variable {text text' : Text} {tokens tokens' ordered ordered' : List Token}

theorem isSpelled_of_tokenize (h : tokenize text = .ok tokens) :
    ∀ token ∈ tokens, token.IsSpelled :=
  ((List.forall₂_and_left tokens (lexemes text)).mp <| (forall₂_spells_of_tokenize h).imp
    fun _ word hspells => ⟨⟨word, hspells⟩, hspells⟩).1

theorem isSpelled_of_ofTokens (htokens : tokenize text = .ok tokens)
    (hordered : ReversePolish.ofTokens tokens = .ok ordered) :
    ∀ token ∈ ordered, token.IsSpelled := fun token htoken =>
  isSpelled_of_tokenize htokens token
    (List.mem_of_mem_filter ((ReversePolish.perm_of_ofTokens hordered).mem_iff.mp htoken))

/-- **A dumped order determines the result.** Where the orders of two texts are dumped alike they
are the same, and the machine comes to the same number or the same fault. -/
theorem dumped_order_determines (htokens : tokenize text = .ok tokens)
    (htokens' : tokenize text' = .ok tokens')
    (hordered : ReversePolish.ofTokens tokens = .ok ordered)
    (hordered' : ReversePolish.ofTokens tokens' = .ok ordered')
    (hrow : Dump.orderRow ordered = Dump.orderRow ordered') :
    ordered = ordered' ∧ Machine.run ordered = Machine.run ordered' := by
  have htexts : texts ordered = texts ordered' := by
    unfold Dump.orderRow at hrow
    exact List.append_cancel_left (Line.output.inj hrow)
  have hequal := eq_of_texts_eq (isSpelled_of_ofTokens htokens hordered)
    (isSpelled_of_ofTokens htokens' hordered') htexts
  exact ⟨hequal, congrArg Machine.run hequal⟩

/-- Two texts with one dumped order. -/
theorem dumped_order_determines_product : ∃ ordered ordered',
    ReversePolish.ofTokens [.number 2, .operator .multiply, .operator .negate, .number 0.5] =
        .ok ordered ∧
      ReversePolish.ofTokens [.leftParen, .number 2, .rightParen, .operator .multiply,
        .leftParen, .operator .negate, .number 0.5, .rightParen] = .ok ordered' ∧
      Dump.orderRow ordered = .output "postfix\t2.0 0.5 ~ *".toList ∧
      Dump.orderRow ordered' = .output "postfix\t2.0 0.5 ~ *".toList ∧
      ordered = ordered' ∧ Machine.run ordered = Machine.run ordered' := by
  have htokens : tokenize "2 * -.5".toList =
      .ok [.number 2, .operator .multiply, .operator .negate, .number 0.5] := by decide +kernel
  have htokens' : tokenize "(2.)*(-0.50)".toList =
      .ok [.leftParen, .number 2, .rightParen, .operator .multiply, .leftParen,
        .operator .negate, .number 0.5, .rightParen] := by decide +kernel
  refine ⟨[.number 2, .number 0.5, .operator .negate, .operator .multiply], _, by decide +kernel,
    rfl, by decide +kernel, by decide +kernel, ?_⟩
  exact dumped_order_determines htokens htokens' (by decide +kernel) (by decide +kernel)
    (by decide +kernel)

end DeskCalculator
