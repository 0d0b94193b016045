import DeskCalculator.Proofs.Reordering
import Mathlib.Data.List.Induction

/-!
# Which tokens are reordered

Reordering never counts parentheses: it pops a stack of operators, functions and parentheses. What
it judges is a count all the same. Behind tokens the depth is the number of left parentheses less
that of right ones (`nesting`), and a right parenthesis and a comma have to stand at a depth of at
least one. The count of the open parentheses (`nestAll`) goes through exactly where no token breaks
this, and it is then the depth (`nestAll_eq_ok_iff`). So tokens are reordered if and only if their
parentheses are balanced and each comma is inside of some, and otherwise the first token that breaks
this has the fault, or the end of the tokens if none does (`ofTokens_judges_nesting`).
-/

namespace DeskCalculator

namespace ReversePolish

variable {before tokens : List Token} {token : Token}

/-- The depth behind tokens: the left parentheses among them less the right ones. -/
def nesting (tokens : List Token) : Int :=
  tokens.count .leftParen - tokens.count .rightParen

/-- A token that needs an open parenthesis stands where none is open. -/
def Breaks (before : List Token) (token : Token) : Prop :=
  nesting before = 0 ∧ (token = .rightParen ∨ token = .comma)

/-- No token needs an open parenthesis where none is open. -/
def Unbroken (tokens : List Token) : Prop :=
  ∀ before token after, tokens = before ++ token :: after → ¬ Breaks before token

/-! ### The count is the depth -/

theorem nesting_append (first second : List Token) :
    nesting (first ++ second) = nesting first + nesting second := by
  unfold nesting
  rw [List.count_append, List.count_append]
  omega

theorem unbroken_nil : Unbroken [] := by
  intro before token after heq
  simp at heq

theorem Unbroken.left {after : List Token} (h : Unbroken (before ++ after)) : Unbroken before := by
  intro first token rest heq
  exact h first token (rest ++ after) (by rw [heq]; simp)

theorem unbroken_concat : Unbroken (tokens ++ [token]) ↔
    Unbroken tokens ∧ ¬ Breaks tokens token := by
  constructor
  · intro h
    exact ⟨h.left, h tokens token [] rfl⟩
  · rintro ⟨htokens, hlast⟩ before next after heq
    rcases List.eq_nil_or_concat after with rfl | ⟨after', last, rfl⟩
    · have heq' := List.append_inj' heq rfl
      obtain ⟨rfl, hnext⟩ := heq'
      obtain rfl : token = next := List.singleton_inj.mp hnext
      exact hlast
    · rw [List.concat_eq_append, ← List.cons_append, ← List.append_assoc] at heq
      exact htokens before next after' (List.append_inj' heq rfl).1

theorem nest_eq_ok_iff {opened opened' : Nat} (h : nesting before = opened) :
    nest opened token = .ok opened' ↔
      ¬ Breaks before token ∧ nesting (before ++ [token]) = opened' := by
  have hbreaks : Breaks before token ↔ opened = 0 ∧ (token = .rightParen ∨ token = .comma) := by
    rw [Breaks, h, Int.natCast_eq_zero]
  rw [hbreaks, nesting_append, h]
  by_cases hzero : opened = 0
  · cases token <;> simp [nest, nesting, hzero] <;> omega
  · cases token <;> simp [nest, nesting, hzero] <;> omega

/-- What is counted breaks nothing, and the count is the depth. -/
theorem unbroken_of_nestAll {opened : Nat} (h : nestAll 0 tokens = .ok opened) :
    Unbroken tokens ∧ nesting tokens = opened := by
  -- The last token is taken off, since the depth is that of all the tokens before it.
  induction tokens using List.reverseRecOn generalizing opened with
  | nil =>
    cases h
    exact ⟨unbroken_nil, rfl⟩
  | append_singleton tokens token ih =>
    rw [nestAll_append] at h
    cases hall : nestAll 0 tokens with
    | error fault =>
      rw [hall] at h
      cases h
    | ok reached =>
      rw [hall] at h
      obtain ⟨hunbroken, hreached⟩ := ih hall
      have hlast : nest reached token = .ok opened := by
        change nestAll reached [token] = .ok opened at h
        rw [nestAll] at h
        cases hnest : nest reached token <;> rw [hnest] at h <;> cases h
        rfl
      obtain ⟨hnot, hdepth⟩ := (nest_eq_ok_iff hreached).mp hlast
      exact ⟨unbroken_concat.mpr ⟨hunbroken, hnot⟩, hdepth⟩

theorem Unbroken.exists_nestAll (h : Unbroken tokens) :
    ∃ opened : Nat, nestAll 0 tokens = .ok opened ∧ nesting tokens = opened := by
  cases hall : nestAll 0 tokens with
  | ok opened => exact ⟨opened, rfl, (unbroken_of_nestAll hall).2⟩
  | error fault =>
    obtain ⟨before, token, after, opened, rfl, hbefore, htoken⟩ := nestAll_eq_error_iff.mp hall
    obtain ⟨rfl, hclosing⟩ := nest_eq_error_iff.mp htoken
    have hdepth : nesting before = 0 := (unbroken_of_nestAll hbefore).2
    exact absurd ⟨hdepth, hclosing.imp And.left And.left⟩ (h before token after rfl)

/-- **The count goes through where nothing breaks the nesting, and it is the depth.** -/
theorem nestAll_eq_ok_iff {opened : Nat} :
    nestAll 0 tokens = .ok opened ↔ Unbroken tokens ∧ nesting tokens = opened := by
  refine ⟨unbroken_of_nestAll, ?_⟩
  rintro ⟨hunbroken, hdepth⟩
  obtain ⟨opened', hall, hdepth'⟩ := hunbroken.exists_nestAll
  have heq : opened = opened' := by omega
  rw [hall, heq]

theorem Unbroken.nesting_nonneg (h : Unbroken tokens) : 0 ≤ nesting tokens := by
  obtain ⟨opened, -, hdepth⟩ := h.exists_nestAll
  omega

/-! ### Balanced parentheses -/

/-- **Nothing breaks the nesting and none is left open**: no prefix has more right parentheses than
left ones, the totals are equal, and each comma is inside of a parenthesis. -/
theorem unbroken_and_closed_iff : Unbroken tokens ∧ nesting tokens = 0 ↔
    (∀ before, before <+: tokens → before.count .rightParen ≤ before.count .leftParen) ∧
      tokens.count .leftParen = tokens.count .rightParen ∧
      ∀ before after, tokens = before ++ .comma :: after → 1 ≤ nesting before := by
  constructor
  · rintro ⟨hunbroken, hclosed⟩
    refine ⟨?_, ?_, ?_⟩
    · rintro before ⟨after, rfl⟩
      have hdepth := hunbroken.left.nesting_nonneg
      unfold nesting at hdepth
      omega
    · unfold nesting at hclosed
      omega
    · rintro before after rfl
      have hdepth := hunbroken.left.nesting_nonneg
      have hcomma := hunbroken before .comma after rfl
      have hne : nesting before ≠ 0 := fun hzero => hcomma ⟨hzero, .inr rfl⟩
      omega
  · rintro ⟨hprefixes, htotals, hcommas⟩
    refine ⟨?_, by unfold nesting; omega⟩
    rintro before token after rfl ⟨hzero, rfl | rfl⟩
    · have hclosing := hprefixes (before ++ [.rightParen]) ⟨after, by simp⟩
      simp only [List.count_append, List.count_singleton_self, List.count_singleton] at hclosing
      unfold nesting at hzero
      simp at hclosing
      omega
    · have hcomma := hcommas before after rfl
      omega

/-! ### The verdict -/

theorem nestAll_zero_eq_error_iff {fault : Fault} : nestAll 0 tokens = .error fault ↔
    ∃ before token after, tokens = before ++ token :: after ∧ Unbroken before ∧
      nesting before = 0 ∧
      (token = .rightParen ∧ fault = .missingLeft ∨
        token = .comma ∧ fault = .misplacedComma) := by
  rw [nestAll_eq_error_iff]
  constructor
  · rintro ⟨before, token, after, opened, heq, hbefore, htoken⟩
    obtain ⟨rfl, hfault⟩ := nest_eq_error_iff.mp htoken
    obtain ⟨hunbroken, hdepth⟩ := nestAll_eq_ok_iff.mp hbefore
    exact ⟨before, token, after, heq, hunbroken, hdepth, hfault⟩
  · rintro ⟨before, token, after, heq, hunbroken, hdepth, hfault⟩
    have hbefore : nestAll 0 before = .ok 0 := nestAll_eq_ok_iff.mpr ⟨hunbroken, hdepth⟩
    exact ⟨before, token, after, 0, heq, hbefore, nest_eq_error_iff.mpr ⟨rfl, hfault⟩⟩

/-- **Where reordering fails**: on the first token that breaks the nesting, or at the end. -/
theorem ofTokens_eq_error_iff_breaks {fault : Fault} : ofTokens tokens = .error fault ↔
    (∃ before token after, tokens = before ++ token :: after ∧ Unbroken before ∧
      nesting before = 0 ∧
      (token = .rightParen ∧ fault = .missingLeft ∨
        token = .comma ∧ fault = .misplacedComma)) ∨
    Unbroken tokens ∧ 0 < nesting tokens ∧ fault = .missingRight := by
  rw [ofTokens_eq_error_iff, nestAll_zero_eq_error_iff]
  refine or_congr_right ?_
  constructor
  · rintro ⟨opened, hall, hopen, hfault⟩
    obtain ⟨hunbroken, hdepth⟩ := nestAll_eq_ok_iff.mp hall
    exact ⟨hunbroken, by omega, hfault⟩
  · rintro ⟨hunbroken, hpos, hfault⟩
    obtain ⟨opened, hall, hdepth⟩ := hunbroken.exists_nestAll
    exact ⟨opened, hall, by omega, hfault⟩

/-- **Reordering judges the nesting and nothing else.** Tokens of any kind and in any order are
reordered if and only if no prefix has more right parentheses than left ones, the totals are equal,
and each comma stands at a depth of at least one. Otherwise the first token that breaks this decides
what is reported, or the end of the tokens if none does and the depth there is positive. -/
theorem ofTokens_judges_nesting (tokens : List Token) :
    ((∃ ordered, ofTokens tokens = .ok ordered) ↔
      (∀ before, before <+: tokens → before.count .rightParen ≤ before.count .leftParen) ∧
        tokens.count .leftParen = tokens.count .rightParen ∧
        ∀ before after, tokens = before ++ .comma :: after → 1 ≤ nesting before) ∧
    ∀ kind message,
      (∃ fault, ofTokens tokens = .error fault ∧ fault.kind = kind ∧ fault.message = message) ↔
        (∃ before token after, tokens = before ++ token :: after ∧ Unbroken before ∧
          nesting before = 0 ∧
          (token = .rightParen ∧ kind = .mismatchedParentheses ∧ message = "Missing '('" ∨
            token = .comma ∧ kind = .invalidSyntax ∧ message = "Misplaced comma")) ∨
        Unbroken tokens ∧ 0 < nesting tokens ∧
          kind = .mismatchedParentheses ∧ message = "Missing ')'" := by
  refine ⟨?_, fun kind message => ⟨?_, ?_⟩⟩
  · rw [exists_ofTokens_iff, nestAll_eq_ok_iff]
    exact unbroken_and_closed_iff
  · rintro ⟨fault, hfault, rfl, rfl⟩
    rcases ofTokens_eq_error_iff_breaks.mp hfault with
      ⟨before, token, after, heq, hunbroken, hdepth, hwhich⟩ | ⟨hunbroken, hpos, rfl⟩
    · refine .inl ⟨before, token, after, heq, hunbroken, hdepth, ?_⟩
      rcases hwhich with ⟨htoken, rfl⟩ | ⟨htoken, rfl⟩
      · exact .inl ⟨htoken, rfl, rfl⟩
      · exact .inr ⟨htoken, rfl, rfl⟩
    · exact .inr ⟨hunbroken, hpos, rfl, rfl⟩
  · rintro (⟨before, token, after, heq, hunbroken, hdepth, hwhich⟩ | ⟨hunbroken, hpos, rfl, rfl⟩)
    · rcases hwhich with ⟨htoken, rfl, rfl⟩ | ⟨htoken, rfl, rfl⟩
      · have hbreaks := ofTokens_eq_error_iff_breaks.mpr
          (.inl ⟨before, token, after, heq, hunbroken, hdepth, .inl ⟨htoken, rfl⟩⟩)
        exact ⟨_, hbreaks, rfl, rfl⟩
      · have hbreaks := ofTokens_eq_error_iff_breaks.mpr
          (.inl ⟨before, token, after, heq, hunbroken, hdepth, .inr ⟨htoken, rfl⟩⟩)
        exact ⟨_, hbreaks, rfl, rfl⟩
    · have hopen := ofTokens_eq_error_iff_breaks.mpr (.inr ⟨hunbroken, hpos, rfl⟩)
      exact ⟨_, hopen, rfl, rfl⟩

end ReversePolish

end DeskCalculator
