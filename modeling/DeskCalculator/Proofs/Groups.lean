import DeskCalculator.Proofs.Precedence
import DeskCalculator.Proofs.WordsKept
import Mathlib.Data.List.Chain

/-!
# Groups in parentheses

A left parenthesis on the stack hides all that lies below: nothing but its right parenthesis reaches
further down. So the tokens between two parentheses are shifted as they are by themselves
(`shiftAll_above`), and the right one then releases what is left of them, and no function with it,
if none waits directly below (`shiftAll_group`). Where each function is followed by its parenthesis,
a waiting function always has this parenthesis on it (`Covered`), so behind such tokens none is at
the top (`noCall_of_shiftAll`). A group then does the same as a single number in its place, with its
own tokens in reverse Polish order where the number would stand (`group_reordered_alone`).
-/

namespace DeskCalculator.ReversePolish

variable {stack stack' below : List Pending} {token : Token} {tokens released : List Token}

/-! ### Above a parenthesis -/

theorem takeWhile_append_leftParen {p : Pending → Bool} (hp : p .leftParen = false) :
    (stack ++ .leftParen :: below).takeWhile p = stack.takeWhile p := by
  induction stack with
  | nil => exact List.takeWhile_cons_of_neg (by rw [hp]; exact Bool.false_ne_true)
  | cons x stack ih =>
    rw [List.cons_append, List.takeWhile_cons, List.takeWhile_cons, ih]

theorem dropWhile_append_leftParen {p : Pending → Bool} (hp : p .leftParen = false) :
    (stack ++ .leftParen :: below).dropWhile p = stack.dropWhile p ++ .leftParen :: below := by
  induction stack with
  | nil => exact List.dropWhile_cons_of_neg (by rw [hp]; exact Bool.false_ne_true)
  | cons x stack ih =>
    rw [List.cons_append, List.dropWhile_cons, List.dropWhile_cons]
    split
    · exact ih
    · rfl

/-- **One token**: what lies below a left parenthesis makes no difference to it. -/
theorem shift_above (h : shift stack token = .ok (released, stack')) :
    shift (stack ++ .leftParen :: below) token = .ok (released, stack' ++ .leftParen :: below) := by
  have hgroup : group (stack ++ .leftParen :: below) = group stack :=
    congrArg (List.map Pending.token) (takeWhile_append_leftParen rfl)
  have henclosing : enclosing (stack ++ .leftParen :: below) =
      enclosing stack ++ .leftParen :: below := dropWhile_append_leftParen rfl
  cases token with
  | number v =>
    cases h
    rfl
  | constant name =>
    cases h
    rfl
  | function name =>
    cases h
    rfl
  | leftParen =>
    cases h
    rfl
  | operator op =>
    cases h
    rw [shift, takeWhile_append_leftParen rfl, dropWhile_append_leftParen rfl]
    rfl
  | comma =>
    simp only [shift] at h
    rw [shift, hgroup, henclosing]
    rcases enclosing_eq stack with ⟨hnone, -⟩ | ⟨rest, hrest, -⟩
    · rw [hnone] at h
      cases h
    · rw [hrest] at h ⊢
      cases h
      rfl
  | rightParen =>
    simp only [shift] at h
    rw [shift, hgroup, henclosing]
    rcases enclosing_eq stack with ⟨hnone, -⟩ | ⟨rest, hrest, -⟩
    · rw [hnone] at h
      cases h
    · rw [hrest] at h ⊢
      cases rest with
      | nil =>
        cases h
        rfl
      | cons top rest =>
        cases top with
        | function | operator | leftParen =>
          cases h
          rfl

theorem shiftAll_above (h : shiftAll stack tokens = .ok (released, stack')) :
    shiftAll (stack ++ .leftParen :: below) tokens =
      .ok (released, stack' ++ .leftParen :: below) := by
  -- The stack is generalised: each token leaves another one to those behind it.
  induction tokens generalizing stack released with
  | nil =>
    cases h
    rfl
  | cons token tokens ih =>
    obtain ⟨first, reached, later, hfirst, hlater, rfl⟩ := exists_of_shiftAll_cons h
    exact shiftAll_cons (shift_above hfirst) (ih hlater)

/-! ### A group -/

theorem exists_shiftAll_of_ofTokens {ordered : List Token} (h : ofTokens tokens = .ok ordered) :
    ∃ released waiting, shiftAll [] tokens = .ok (released, waiting) ∧
      (∀ p ∈ waiting, (!p.isParen) = true) ∧ ordered = released ++ waiting.map Pending.token := by
  cases hall : shiftAll [] tokens with
  | error fault =>
    have hfails := reorder_append_of_error hall []
    rw [List.append_nil] at hfails
    rw [ofTokens, hfails] at h
    cases h
  | ok shifted =>
    obtain ⟨released, waiting⟩ := shifted
    rw [ofTokens, reorder_of_shiftAll hall, finish] at h
    split at h
    · cases h
    · next hany =>
      cases h
      exact ⟨released, waiting, rfl, by simpa using hany, rfl⟩

/-- **A group** releases its own tokens in reverse Polish order and leaves the stack as it was, if
no function waits for it at the top. -/
theorem shiftAll_group {ordered : List Token} (h : ofTokens tokens = .ok ordered)
    (hstack : NoCall stack) :
    shiftAll stack (.leftParen :: tokens ++ [.rightParen]) = .ok (ordered, stack) := by
  obtain ⟨released, waiting, hall, hparens, rfl⟩ := exists_shiftAll_of_ofTokens h
  have habove : shiftAll (.leftParen :: stack) tokens =
      .ok (released, waiting ++ .leftParen :: stack) := shiftAll_above hall
  exact shiftAll_leftParen habove (shift_rightParen hparens hstack)

/-! ### Functions and their parentheses -/

/-- Each function is followed by a left parenthesis. -/
def CallsFollowed : List Token → Prop
  | [] => True
  | .function _ :: tokens => tokens.head? = some .leftParen ∧ CallsFollowed tokens
  | _ :: tokens => CallsFollowed tokens

theorem CallsFollowed.tail (h : CallsFollowed (token :: tokens)) :
    CallsFollowed tokens ∧ ((∃ name, token = .function name) → tokens.head? = some .leftParen) := by
  cases token with
  | function name => exact ⟨h.2, fun _ => h.1⟩
  | number | constant | operator | leftParen | rightParen | comma =>
    refine ⟨h, ?_⟩
    rintro ⟨name, hname⟩
    cases hname

/-- Each function that waits has a left parenthesis on it, but for one at the top. -/
def Covered (stack : List Pending) : Prop :=
  stack.IsChain fun above under => ∀ name, under = .function name → above = .leftParen

theorem Covered.tail {top : Pending} (h : Covered (top :: stack)) : Covered stack :=
  List.IsChain.tail h

theorem Covered.noCall {top : Pending} (h : Covered (top :: stack)) (htop : top ≠ .leftParen) :
    NoCall stack := by
  match stack, h with
  | [], _ => trivial
  | .leftParen :: _, _ => trivial
  | .operator _ :: _, _ => trivial
  | .function name :: _, h => exact htop ((List.isChain_cons_cons.mp h).1 name rfl)

theorem Covered.cons {top : Pending} (h : Covered stack) (hstack : NoCall stack) :
    Covered (top :: stack) := by
  refine List.isChain_cons.mpr ⟨fun under hunder name hname => ?_, h⟩
  obtain ⟨rest, rfl⟩ := List.head?_eq_some_iff.mp hunder
  rw [hname] at hstack
  exact hstack.elim

theorem Covered.noCall_dropWhile (h : Covered stack) (hstack : NoCall stack) (op : Operator) :
    NoCall (stack.dropWhile (·.yieldsTo op)) := by
  induction stack with
  | nil => trivial
  | cons top stack ih =>
    rw [List.dropWhile_cons]
    split
    · next hyields =>
      have htop : top ≠ .leftParen := by
        rintro rfl
        cases hyields
      exact ih h.tail (h.noCall htop)
    · exact hstack

/-- **One token**: it leaves a function at the top only if it is one, and a function at the top
waits for its parenthesis. -/
theorem Covered.shift (h : Covered stack) (htop : NoCall stack ∨ token = .leftParen)
    (hshift : shift stack token = .ok (released, stack')) :
    Covered stack' ∧ (NoCall stack' ∨ ∃ name, token = .function name) := by
  cases token with
  | number v =>
    cases hshift
    exact ⟨h, .inl (htop.resolve_right Token.noConfusion)⟩
  | constant name =>
    cases hshift
    exact ⟨h, .inl (htop.resolve_right Token.noConfusion)⟩
  | function name =>
    cases hshift
    exact ⟨h.cons (htop.resolve_right Token.noConfusion), .inr ⟨name, rfl⟩⟩
  | leftParen =>
    cases hshift
    exact ⟨List.isChain_cons.mpr ⟨fun _ _ _ _ => rfl, h⟩, .inl trivial⟩
  | operator op =>
    cases hshift
    have hrest := h.noCall_dropWhile (htop.resolve_right Token.noConfusion) op
    exact ⟨Covered.cons (h.suffix (List.dropWhile_suffix _)) hrest, .inl trivial⟩
  | comma =>
    have henclosing : Covered (enclosing stack) := h.suffix (List.dropWhile_suffix _)
    simp only [ReversePolish.shift] at hshift
    rcases enclosing_eq stack with ⟨hnone, -⟩ | ⟨rest, hrest, -⟩
    · rw [hnone] at hshift
      cases hshift
    · rw [hrest] at hshift henclosing
      cases hshift
      exact ⟨henclosing, .inl trivial⟩
  | rightParen =>
    have henclosing : Covered (enclosing stack) := h.suffix (List.dropWhile_suffix _)
    simp only [ReversePolish.shift] at hshift
    rcases enclosing_eq stack with ⟨hnone, -⟩ | ⟨rest, hrest, -⟩
    · rw [hnone] at hshift
      cases hshift
    · rw [hrest] at hshift henclosing
      have hcovered : Covered rest := Covered.tail henclosing
      cases rest with
      | nil =>
        cases hshift
        exact ⟨hcovered, .inl trivial⟩
      | cons top rest =>
        cases top with
        | function name =>
          cases hshift
          exact ⟨hcovered.tail, .inl (hcovered.noCall Pending.noConfusion)⟩
        | operator | leftParen =>
          cases hshift
          exact ⟨hcovered, .inl trivial⟩

/-- **Behind tokens whose functions have their parentheses** no function is at the top. -/
theorem noCall_of_shiftAll (hcalls : CallsFollowed tokens) (h : Covered stack)
    (htop : NoCall stack ∨ tokens.head? = some .leftParen)
    (hall : shiftAll stack tokens = .ok (released, stack')) : NoCall stack' := by
  induction tokens generalizing stack released with
  | nil =>
    cases hall
    exact htop.resolve_right (Option.some_ne_none _).symm
  | cons token tokens ih =>
    obtain ⟨first, reached, later, hfirst, hlater, -⟩ := exists_of_shiftAll_cons hall
    obtain ⟨hrest, hnext⟩ := hcalls.tail
    obtain ⟨hreached, hcall⟩ := h.shift (htop.imp_right Option.some.inj) hfirst
    exact ih hrest hreached (hcall.imp_right hnext) hlater

/-! ### A group and a number -/

/-- Tokens with others in the place of one. -/
def substitute (token : Token) (others tokens : List Token) : List Token :=
  tokens.flatMap fun next => if next = token then others else [next]

theorem substitute_of_not_mem {others : List Token} (h : token ∉ tokens) :
    substitute token others tokens = tokens := by
  induction tokens with
  | nil => rfl
  | cons next tokens ih =>
    obtain ⟨hnext, hrest⟩ := not_or.mp (mt List.mem_cons.mpr h)
    rw [substitute, List.flatMap_cons, if_neg (Ne.symm hnext)]
    exact congrArg (next :: ·) (ih hrest)

theorem substitute_between {before after others : List Token} (hbefore : token ∉ before)
    (hafter : token ∉ after) :
    substitute token others (before ++ [token] ++ after) = before ++ others ++ after := by
  have hone : substitute token others [token] = others := by
    rw [substitute, List.flatMap_singleton, if_pos rfl]
  have happend : substitute token others (before ++ [token] ++ after) =
      substitute token others before ++ substitute token others [token] ++
        substitute token others after := by
    unfold substitute
    rw [List.flatMap_append, List.flatMap_append]
  rw [happend, hone, substitute_of_not_mem hbefore, substitute_of_not_mem hafter]

theorem count_number_of_ofTokens {before after ordered : List Token} {v : Float}
    (hbefore : .number v ∉ before) (hafter : .number v ∉ after)
    (h : ofTokens (before ++ .number v :: after) = .ok ordered) :
    ordered.count (.number v) = 1 := by
  have hoperands := congrArg (List.count (.number v)) (operands_of_ofTokens h)
  rw [List.count_filter rfl, List.count_filter rfl, List.count_append, List.count_cons_self,
    List.count_eq_zero.mpr hbefore, List.count_eq_zero.mpr hafter] at hoperands
  exact hoperands

/-- Tokens that leave the stack as they find it put what they release between what is released
before them and after them. -/
theorem ofTokens_between {before middle out : List Token}
    (hbefore : shiftAll [] before = .ok (released, stack))
    (hmiddle : shiftAll stack middle = .ok (out, stack)) (after : List Token) :
    ofTokens (before ++ middle ++ after) =
      (reorder stack after).map fun later => released ++ out ++ later :=
  reorder_append (shiftAll_append hbefore hmiddle) after

/-- **A group is reordered by itself.** Let tokens have a reverse Polish order, and let each function
among the tokens before them be followed by its parenthesis. Then these tokens in parentheses,
whatever stands before and after, are reordered as a number in their place is, with their own order
where the number stands, if this number occurs nowhere else; it then stands in one place. And if one
of the two fails, so does the other, with the same fault. -/
theorem group_reordered_alone {before inner after ordered : List Token} {v : Float}
    (hinner : ofTokens inner = .ok ordered) (hcalls : CallsFollowed before)
    (hbefore : .number v ∉ before) (hafter : .number v ∉ after) :
    ofTokens (before ++ .leftParen :: inner ++ .rightParen :: after) =
        (ofTokens (before ++ .number v :: after)).map (substitute (.number v) ordered) ∧
      ∀ all, ofTokens (before ++ .number v :: after) = .ok all → all.count (.number v) = 1 := by
  have hcount : ∀ all, ofTokens (before ++ .number v :: after) = .ok all →
      all.count (.number v) = 1 := fun _ => count_number_of_ofTokens hbefore hafter
  refine ⟨?_, hcount⟩
  have hsplit : before ++ .leftParen :: inner ++ .rightParen :: after =
      before ++ (.leftParen :: inner ++ [.rightParen]) ++ after := by simp
  have hsingle : before ++ .number v :: after = before ++ [.number v] ++ after := by simp
  cases hall : shiftAll [] before with
  | error fault =>
    have hfails (middle : List Token) : ofTokens (before ++ middle ++ after) = .error fault := by
      rw [List.append_assoc]
      exact reorder_append_of_error hall _
    rw [hsplit, hsingle, hfails, hfails]
    rfl
  | ok shifted =>
    obtain ⟨released, stack⟩ := shifted
    have hstack : NoCall stack :=
      noCall_of_shiftAll hcalls List.isChain_nil (.inl trivial) hall
    have hone : shiftAll stack [.number v] = .ok ([.number v], stack) := rfl
    have hnumber := ofTokens_between hall hone after
    have hgroup := ofTokens_between hall (shiftAll_group hinner hstack) after
    rw [hsplit, hgroup, hsingle, hnumber]
    cases hlater : reorder stack after with
    | error fault => rfl
    | ok later =>
      rw [hlater] at hnumber
      have hsum := hcount _ (hsingle ▸ hnumber)
      rw [List.count_append, List.count_append, List.count_singleton_self] at hsum
      have hreleased : .number v ∉ released := List.count_eq_zero.mp (by omega)
      have hrest : .number v ∉ later := List.count_eq_zero.mp (by omega)
      exact congrArg Except.ok (substitute_between hreleased hrest).symm

/-- The beginning of a root of a product. -/
def rootOfProduct : List Token :=
  [.function Builtin.sqrt.name, .leftParen, .number 2, .operator .multiply]

/-- A difference. -/
def difference : List Token :=
  [.number 3, .operator .subtract, .number 1]

/-- The difference in parentheses inside of the root stands where a 9 in its place stands; with one
right parenthesis too many, both fail. -/
theorem group_reordered_alone_root :
    ofTokens difference = .ok [.number 3, .number 1, .operator .subtract] ∧
    CallsFollowed rootOfProduct ∧ .number 9 ∉ rootOfProduct ∧
    (.number 9 ∉ [Token.rightParen] ∧
      ofTokens (rootOfProduct ++ .number 9 :: [.rightParen]) = .ok [.number 2, .number 9,
        .operator .multiply, .function Builtin.sqrt.name] ∧
      ofTokens (rootOfProduct ++ .leftParen :: difference ++ .rightParen :: [.rightParen]) =
        .ok [.number 2, .number 3, .number 1, .operator .subtract, .operator .multiply,
          .function Builtin.sqrt.name]) ∧
    .number 9 ∉ [Token.rightParen, .rightParen] ∧
      ofTokens (rootOfProduct ++ .leftParen :: difference ++
        .rightParen :: [.rightParen, .rightParen]) = .error .missingLeft := by
  have hdifference : ofTokens difference = .ok [.number 3, .number 1, .operator .subtract] := rfl
  have hcalls : CallsFollowed rootOfProduct := ⟨rfl, trivial⟩
  have hbefore : .number 9 ∉ rootOfProduct := by decide +kernel
  have hone : .number 9 ∉ [Token.rightParen] := by decide
  have htwo : .number 9 ∉ [Token.rightParen, .rightParen] := by decide
  have hnumber : ofTokens (rootOfProduct ++ .number 9 :: [.rightParen]) = .ok [.number 2,
      .number 9, .operator .multiply, .function Builtin.sqrt.name] := rfl
  refine ⟨hdifference, hcalls, hbefore, ⟨hone, hnumber, ?_⟩, htwo, ?_⟩
  · rw [(group_reordered_alone hdifference hcalls hbefore hone).1, hnumber]
    decide +kernel
  · rw [(group_reordered_alone hdifference hcalls hbefore htwo).1]
    rfl

end DeskCalculator.ReversePolish
