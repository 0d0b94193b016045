import DeskCalculator.Proofs.MachineSteps
import DeskCalculator.ReversePolish
import Mathlib.Data.List.Count
import Mathlib.Tactic.Common

/-!
# What reordering judges and what it keeps

Reordering looks at the parentheses and the commas and at nothing else: it fails exactly where a
count of the open parentheses fails (`nestAll_reorder`). The parentheses that wait on the stack are
those that are open (`nest_shift`). All words, that is all tokens but the punctuation, come out
again, and nothing else does (`perm_of_ofTokens`).
-/

namespace DeskCalculator

theorem countP_dropWhile {α : Type} {p q : α → Bool} (h : ∀ x, p x = true → q x = false)
    (xs : List α) : (xs.dropWhile p).countP q = xs.countP q := by
  have htake : (xs.takeWhile p).countP q = 0 := by
    refine List.countP_eq_zero.mpr fun x hx => ?_
    rw [h x (List.all_eq_true.mp List.all_takeWhile x hx)]
    exact Bool.false_ne_true
  calc (xs.dropWhile p).countP q
      = (xs.takeWhile p).countP q + (xs.dropWhile p).countP q := by rw [htake, Nat.zero_add]
    _ = (xs.takeWhile p ++ xs.dropWhile p).countP q := List.countP_append.symm
    _ = xs.countP q := by rw [List.takeWhile_append_dropWhile]

namespace ReversePolish

open scoped List

/-! ### Open parentheses -/

/-- The number of parentheses that wait. -/
def depth (stack : List Pending) : Nat :=
  stack.countP (·.isParen)

/-- The number of open parentheses after a token. A right parenthesis and a comma have to stand
behind an open one. -/
def nest (opened : Nat) : Token → Except Fault Nat
  | .leftParen => .ok (opened + 1)
  | .rightParen => if opened = 0 then .error .missingLeft else .ok (opened - 1)
  | .comma => if opened = 0 then .error .misplacedComma else .ok opened
  | _ => .ok opened

/-- The number of open parentheses after tokens. -/
def nestAll (opened : Nat) : List Token → Except Fault Nat
  | [] => .ok opened
  | token :: tokens => (nest opened token).bind fun opened' => nestAll opened' tokens

theorem nestAll_append (opened : Nat) (first second : List Token) :
    nestAll opened (first ++ second) =
      (nestAll opened first).bind fun opened' => nestAll opened' second := by
  induction first generalizing opened with
  | nil => rfl
  | cons token first ih =>
    simp only [List.cons_append, nestAll]
    cases nest opened token with
    | error fault => rfl
    | ok opened' => exact ih opened'

theorem depth_leftParen (stack : List Pending) : depth (.leftParen :: stack) = depth stack + 1 :=
  List.countP_cons_of_pos rfl

theorem depth_dropWhile {p : Pending → Bool} (hp : ∀ x, p x = true → x.isParen = false)
    (stack : List Pending) : depth (stack.dropWhile p) = depth stack :=
  countP_dropWhile hp stack

theorem depth_enclosing (stack : List Pending) : depth (enclosing stack) = depth stack :=
  depth_dropWhile (fun x hx => by simpa using hx) stack

theorem isParen_of_yieldsTo {next : Operator} {x : Pending} (h : x.yieldsTo next = true) :
    x.isParen = false := by
  cases x with
  | operator op => rfl
  | function name => rfl
  | leftParen => cases h

theorem enclosing_eq (stack : List Pending) :
    enclosing stack = [] ∧ depth stack = 0 ∨
      ∃ rest, enclosing stack = .leftParen :: rest ∧ depth stack = depth rest + 1 := by
  rw [← depth_enclosing]
  cases h : enclosing stack with
  | nil => exact .inl ⟨rfl, rfl⟩
  | cons x rest =>
    have hx : x.isParen = true := by
      have := List.head_dropWhile_not (fun x : Pending => !x.isParen)
        (l := stack) (by rw [show stack.dropWhile _ = _ from h]; exact List.cons_ne_nil x rest)
      simpa [show stack.dropWhile _ = _ from h] using this
    cases x with
    | leftParen => exact .inr ⟨rest, rfl, depth_leftParen rest⟩
    | operator op => cases hx
    | function name => cases hx

/-- **The parentheses that wait are those that are open.** -/
theorem nest_shift (stack : List Pending) (token : Token) :
    (shift stack token).map (fun shifted => depth shifted.2) = nest (depth stack) token := by
  cases token with
  | number v => rfl
  | constant name => rfl
  | function name => rfl
  | leftParen => exact congrArg Except.ok (depth_leftParen stack)
  | operator op =>
    exact congrArg Except.ok (depth_dropWhile (fun _ => isParen_of_yieldsTo) stack)
  | comma =>
    rcases enclosing_eq stack with ⟨henclosing, hdepth⟩ | ⟨rest, henclosing, hdepth⟩
    · simp only [shift, nest, henclosing, hdepth]
      rfl
    · simp only [shift, nest, henclosing, hdepth]
      exact congrArg Except.ok (depth_leftParen rest)
  | rightParen =>
    rcases enclosing_eq stack with ⟨henclosing, hdepth⟩ | ⟨rest, henclosing, hdepth⟩
    · simp only [shift, nest, henclosing, hdepth]
      rfl
    · simp only [shift, nest, henclosing, hdepth]
      match rest with
      | [] => rfl
      | .function name :: rest => rfl
      | .operator op :: rest => rfl
      | .leftParen :: rest => rfl

/-- **Reordering judges the parentheses and the commas only.** -/
theorem nestAll_reorder (stack : List Pending) (tokens : List Token) :
    (reorder stack tokens).map (fun _ => ()) =
      (nestAll (depth stack) tokens).bind fun opened =>
        if opened = 0 then .ok () else .error .missingRight := by
  induction tokens generalizing stack with
  | nil =>
    show (finish stack).map _ = if depth stack = 0 then _ else _
    unfold finish
    by_cases hany : stack.any (·.isParen) = true
    · rw [if_pos hany, if_neg]
      · rfl
      · rw [depth, List.countP_eq_zero]
        simpa using hany
    · rw [if_neg hany, if_pos]
      · rfl
      · rw [depth, List.countP_eq_zero]
        simpa using hany
  | cons token tokens ih =>
    simp only [reorder, nestAll, ← nest_shift]
    cases shift stack token with
    | error fault => rfl
    | ok shifted =>
      obtain ⟨released, stack'⟩ := shifted
      refine Eq.trans ?_ (ih stack')
      simp only
      cases reorder stack' tokens <;> rfl

/-- Tokens are reordered if their parentheses are counted and none is left open. -/
theorem exists_ofTokens_iff {tokens : List Token} :
    (∃ ordered, ofTokens tokens = .ok ordered) ↔ nestAll 0 tokens = .ok 0 := by
  have hjudged : (ofTokens tokens).map _ = (nestAll 0 tokens).bind _ := nestAll_reorder [] tokens
  cases hordered : ofTokens tokens with
  | ok ordered =>
    rw [hordered] at hjudged
    cases hnest : nestAll 0 tokens with
    | error fault =>
      rw [hnest] at hjudged
      cases hjudged
    | ok opened =>
      rw [hnest] at hjudged
      change Except.ok () = if opened = 0 then _ else _ at hjudged
      split at hjudged
      · next hzero => simp [hzero]
      · cases hjudged
  | error fault =>
    have hnot : nestAll 0 tokens ≠ .ok 0 := by
      intro hnest
      rw [hordered, hnest] at hjudged
      cases hjudged
    simp [hnot]

theorem ofTokens_eq_error_iff {tokens : List Token} {fault : Fault} :
    ofTokens tokens = .error fault ↔ nestAll 0 tokens = .error fault ∨
      ∃ opened, nestAll 0 tokens = .ok opened ∧ opened ≠ 0 ∧ fault = .missingRight := by
  have hjudged : (ofTokens tokens).map _ = (nestAll 0 tokens).bind _ := nestAll_reorder [] tokens
  cases hnest : nestAll 0 tokens with
  | error fault' =>
    rw [hnest] at hjudged
    cases hordered : ofTokens tokens with
    | ok ordered =>
      rw [hordered] at hjudged
      cases hjudged
    | error reported =>
      rw [hordered] at hjudged
      obtain rfl : reported = fault' := Except.error.inj hjudged
      simp
  | ok opened =>
    rw [hnest] at hjudged
    change _ = if opened = 0 then _ else _ at hjudged
    cases hordered : ofTokens tokens with
    | ok ordered =>
      have hzero : opened = 0 := by
        have hcount := exists_ofTokens_iff.mp ⟨ordered, hordered⟩
        exact Except.ok.inj (hnest.symm.trans hcount)
      simp [hzero]
    | error reported =>
      rw [hordered] at hjudged
      split at hjudged
      · cases hjudged
      · next hopen =>
        obtain rfl : reported = .missingRight := Except.error.inj hjudged
        simp [hopen, eq_comm]

theorem nestAll_of_ofTokens {tokens ordered : List Token} (h : ofTokens tokens = .ok ordered) :
    nestAll 0 tokens = .ok 0 :=
  exists_ofTokens_iff.mp ⟨ordered, h⟩

theorem nest_eq_error_iff {opened : Nat} {token : Token} {fault : Fault} :
    nest opened token = .error fault ↔ opened = 0 ∧
      (token = .rightParen ∧ fault = .missingLeft ∨
        token = .comma ∧ fault = .misplacedComma) := by
  by_cases hzero : opened = 0
  · cases token <;> simp [nest, hzero, eq_comm]
  · cases token <;> simp [nest, hzero]

theorem nestAll_eq_error_iff {tokens : List Token} {opened : Nat} {fault : Fault} :
    nestAll opened tokens = .error fault ↔ ∃ before token after opened',
      tokens = before ++ token :: after ∧ nestAll opened before = .ok opened' ∧
        nest opened' token = .error fault := by
  constructor
  · intro h
    induction tokens generalizing opened with
    | nil => cases h
    | cons token tokens ih =>
      rw [nestAll] at h
      cases hnest : nest opened token with
      | error fault' =>
        rw [hnest] at h
        obtain rfl : fault' = fault := Except.error.inj h
        exact ⟨[], token, tokens, opened, rfl, rfl, hnest⟩
      | ok opened' =>
        rw [hnest] at h
        obtain ⟨before, last, after, reached, rfl, hbefore, hlast⟩ := ih h
        exact ⟨token :: before, last, after, reached, rfl, by rw [nestAll, hnest]; exact hbefore,
          hlast⟩
  · rintro ⟨before, token, after, opened', rfl, hbefore, htoken⟩
    rw [nestAll_append, hbefore, Except.bind, nestAll, htoken]
    rfl

theorem nestAll_eq_misplacedComma_iff {tokens : List Token} {opened : Nat} :
    nestAll opened tokens = .error .misplacedComma ↔
      ∃ before after, tokens = before ++ .comma :: after ∧ nestAll opened before = .ok 0 := by
  rw [nestAll_eq_error_iff]
  constructor
  · rintro ⟨before, token, after, opened', rfl, hbefore, htoken⟩
    obtain ⟨rfl, ⟨-, hfault⟩ | ⟨rfl, -⟩⟩ := nest_eq_error_iff.mp htoken
    · cases hfault
    · exact ⟨before, after, rfl, hbefore⟩
  · rintro ⟨before, after, rfl, hbefore⟩
    exact ⟨before, .comma, after, 0, rfl, hbefore, rfl⟩

/-! ### Words -/

/-- The words of what waits. -/
def waitingWords (stack : List Pending) : List Token :=
  (stack.map Pending.token).filter Token.isWord

theorem waitingWords_append (first second : List Pending) :
    waitingWords (first ++ second) = waitingWords first ++ waitingWords second := by
  unfold waitingWords
  rw [List.map_append, List.filter_append]

theorem waitingWords_eq_map {stack : List Pending} (h : ∀ x ∈ stack, x.isParen = false) :
    waitingWords stack = stack.map Pending.token := by
  refine List.filter_eq_self.mpr fun token htoken => ?_
  obtain ⟨x, hx, rfl⟩ := List.mem_map.mp htoken
  have hparen := h x hx
  cases x with
  | operator op => rfl
  | function name => rfl
  | leftParen => cases hparen

/-- What is released from the top of the stack, if no parenthesis is, and the words below. -/
theorem waitingWords_split {p : Pending → Bool} (hp : ∀ x, p x = true → x.isParen = false)
    (stack : List Pending) :
    (stack.takeWhile p).map Pending.token ++ waitingWords (stack.dropWhile p) =
      waitingWords stack := by
  have htake : waitingWords (stack.takeWhile p) = (stack.takeWhile p).map Pending.token :=
    waitingWords_eq_map fun x hx => hp x (List.all_eq_true.mp List.all_takeWhile x hx)
  rw [← htake, ← waitingWords_append, List.takeWhile_append_dropWhile]

theorem waitingWords_group (stack : List Pending) :
    group stack ++ waitingWords (enclosing stack) = waitingWords stack :=
  waitingWords_split (fun x hx => by simpa using hx) stack

/-- **One token**: the words that are released or wait are those that waited, and the token. -/
theorem perm_of_shift {stack stack' : List Pending} {token : Token} {released : List Token}
    (h : shift stack token = .ok (released, stack')) :
    (released ++ waitingWords stack').Perm
      ([token].filter Token.isWord ++ waitingWords stack) := by
  cases token with
  | number v =>
    cases h
    exact .refl _
  | constant name =>
    cases h
    exact .refl _
  | function name =>
    cases h
    exact .refl _
  | leftParen =>
    cases h
    exact .refl _
  | operator op =>
    cases h
    rw [← waitingWords_split (fun _ => @isParen_of_yieldsTo op _) stack]
    exact List.perm_middle
  | comma =>
    unfold shift at h
    rcases enclosing_eq stack with ⟨henclosing, -⟩ | ⟨rest, henclosing, -⟩
    · rw [henclosing] at h
      cases h
    · rw [henclosing] at h
      cases h
      rw [← waitingWords_group stack, henclosing]
      exact .refl _
  | rightParen =>
    unfold shift at h
    rcases enclosing_eq stack with ⟨henclosing, -⟩ | ⟨rest, henclosing, -⟩
    · rw [henclosing] at h
      cases h
    · rw [henclosing] at h
      rw [← waitingWords_group stack, henclosing]
      match rest, h with
      | [], h =>
        cases h
        exact .refl _
      | .function name :: rest, h =>
        cases h
        rw [List.append_assoc]
        exact .refl _
      | .operator op :: rest, h =>
        cases h
        exact .refl _
      | .leftParen :: rest, h =>
        cases h
        exact .refl _

/-- **Reordering loses and invents no word.** -/
theorem perm_of_reorder {stack : List Pending} {tokens ordered : List Token}
    (h : reorder stack tokens = .ok ordered) :
    ordered.Perm (tokens.filter Token.isWord ++ waitingWords stack) := by
  induction tokens generalizing stack ordered with
  | nil =>
    unfold reorder finish at h
    split at h
    · cases h
    · next hany =>
      cases h
      rw [waitingWords_eq_map (by simpa using hany)]
      exact .refl _
  | cons token tokens ih =>
    unfold reorder at h
    split at h
    · cases h
    next released stack' hshift =>
    split at h
    · cases h
    next later hlater =>
    cases h
    calc released ++ later
        ~ released ++ (tokens.filter Token.isWord ++ waitingWords stack') :=
          (ih hlater).append_left released
      _ ~ tokens.filter Token.isWord ++ (released ++ waitingWords stack') := by
          rw [← List.append_assoc, ← List.append_assoc]
          exact List.perm_append_comm.append_right _
      _ ~ tokens.filter Token.isWord ++
          ([token].filter Token.isWord ++ waitingWords stack) :=
          (perm_of_shift hshift).append_left _
      _ ~ (token :: tokens).filter Token.isWord ++ waitingWords stack := by
          have hcons : (token :: tokens).filter Token.isWord =
              [token].filter Token.isWord ++ tokens.filter Token.isWord :=
            List.filter_append [token] tokens
          rw [hcons, ← List.append_assoc]
          exact List.perm_append_comm.append_right _

theorem perm_of_ofTokens {tokens ordered : List Token} (h : ofTokens tokens = .ok ordered) :
    ordered.Perm (tokens.filter Token.isWord) := by
  have hperm := perm_of_reorder h
  rwa [waitingWords, List.map_nil, List.filter_nil, List.append_nil] at hperm

end ReversePolish

end DeskCalculator
