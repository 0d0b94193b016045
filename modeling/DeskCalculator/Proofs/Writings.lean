import DeskCalculator.Proofs.Expression

/-!
# Writings from left to right

A writing is read from its left end, and what has been read is at each moment either complete or
waits for an operand. Behind a complete part an operator may follow, whatever the operators in it
(`Complete.percent`, `Complete.binary`): a percent or a binary operator takes as its left operand as
much of the part as binds at least as tightly, which is what `Writes.append_percent` and
`Writes.append_binary` find. A part that waits becomes complete by a tight operand, one that may
stand at level 5 (`Awaits`).
-/

namespace DeskCalculator

namespace Expression

variable {level level' : Nat} {e : Expression} {ts : List Token}

theorem Writes.mono (h : Writes level e ts) (hle : level' ≤ level) : Writes level' e ts := by
  cases h with
  | number v => exact .number v
  | constant k => exact .constant k
  | negate hl he => exact .negate (Nat.le_trans hle hl) he
  | percent hl he => exact .percent (Nat.le_trans hle hl) he
  | binary hl hleft hright => exact .binary (Nat.le_trans hle hl) hleft hright
  | call ha => exact .call ha
  | power hb he => exact .power hb he
  | parenthesised he => exact .parenthesised he

end Expression

theorem BinaryOperator.level_le (op : BinaryOperator) : op.level ≤ 3 := by
  cases op <;> decide

namespace Expression

variable {level : Nat} {e : Expression} {ts : List Token}

/-- **A percent behind a writing** is that of its last operand. -/
theorem Writes.append_percent (h : Writes level e ts) (hlevel : level ≤ 4) :
    ∃ e', Writes level e' (ts ++ [.operator .percent]) := by
  induction h with
  | number v => exact ⟨_, .percent hlevel (.number v)⟩
  | constant k => exact ⟨_, .percent hlevel (.constant k)⟩
  | negate _ he _ => exact ⟨_, .percent hlevel (.negate (by decide) he)⟩
  | percent _ he _ => exact ⟨_, .percent hlevel (.percent (Nat.le_refl _) he)⟩
  | @binary _ op l _ ls rs hl hleft _ _ ihr =>
    obtain ⟨r', hr'⟩ := ihr (Nat.succ_le_succ op.level_le)
    refine ⟨.binary op l r', ?_⟩
    rw [List.append_assoc, List.cons_append]
    exact .binary hl hleft hr'
  | call ha _ => exact ⟨_, .percent hlevel (.call ha)⟩
  | power hb he _ _ => exact ⟨_, .percent hlevel (.power hb he)⟩
  | parenthesised he _ => exact ⟨_, .percent hlevel (.parenthesised he)⟩

/-- **A binary operator behind a writing** and its right operand. Where the last operator binds more
loosely, the left operand is found in its right one. -/
theorem Writes.append_binary {op : BinaryOperator} {r : Expression} {rs : List Token}
    (h : Writes level e ts) (hlevel : level ≤ op.level) (hr : Writes (op.level + 1) r rs) :
    ∃ e', Writes level e' (ts ++ .operator op.operator :: rs) := by
  have hop := op.level_le
  induction h with
  | number v => exact ⟨_, .binary hlevel (.number v) hr⟩
  | constant k => exact ⟨_, .binary hlevel (.constant k) hr⟩
  | negate _ he _ => exact ⟨_, .binary hlevel (.negate (by omega) he) hr⟩
  | percent _ he _ => exact ⟨_, .binary hlevel (.percent (by omega) he) hr⟩
  | @binary _ last l _ ls rs hl hleft hright _ ihr =>
    by_cases hle : op.level ≤ last.level
    · exact ⟨_, .binary hlevel (.binary hle hleft hright) hr⟩
    · obtain ⟨r', hr'⟩ := ihr (by omega)
      refine ⟨.binary last l r', ?_⟩
      rw [List.append_assoc, List.cons_append]
      exact .binary hl hleft hr'
  | call ha _ => exact ⟨_, .binary hlevel (.call ha) hr⟩
  | power hb he _ _ => exact ⟨_, .binary hlevel (.power hb he) hr⟩
  | parenthesised he _ => exact ⟨_, .binary hlevel (.parenthesised he) hr⟩

end Expression

/-- Tokens that are a writing of some expression. -/
def Complete (tokens : List Token) : Prop :=
  ∃ e : Expression, e.Writes 0 tokens

/-- Tokens that any tight operand makes a writing. -/
def Awaits (tokens : List Token) : Prop :=
  ∀ (e : Expression) (operand : List Token), e.Writes 5 operand → Complete (tokens ++ operand)

variable {tokens : List Token}

theorem awaits_nil : Awaits [] := fun e _ h => ⟨e, h.mono (Nat.zero_le 5)⟩

theorem Awaits.negate (h : Awaits tokens) : Awaits (tokens ++ [.operator .negate]) := by
  intro e operand hoperand
  rw [List.append_assoc]
  exact h _ _ (.negate (Nat.le_refl _) hoperand)

theorem Complete.percent (h : Complete tokens) : Complete (tokens ++ [.operator .percent]) := by
  obtain ⟨e, he⟩ := h
  exact he.append_percent (Nat.zero_le 4)

theorem Complete.binary (h : Complete tokens) (op : BinaryOperator) :
    Awaits (tokens ++ [.operator op.operator]) := by
  intro e operand hoperand
  obtain ⟨e', he'⟩ := h
  rw [List.append_assoc]
  exact he'.append_binary (Nat.zero_le _)
    (hoperand.mono (Nat.succ_le_succ (Nat.le_trans op.level_le (by decide))))

end DeskCalculator
