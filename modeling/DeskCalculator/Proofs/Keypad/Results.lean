import DeskCalculator.Keypad.Desk
import DeskCalculator.Proofs.Number.Display
import DeskCalculator.Proofs.Stages

/-!
# The results that a desk keeps

The value of an expression is shown as a plain numeral (`isPlain_of_evaluate`).
On every desk that the calculator reaches, whatever the intents were, the line of the latest result,
the message and the history come from evaluations (`genuine_dispatchAll`): the line shows the value
of some expression, the message is that of the buffer, and each entry has the outcome of its
expression. So all results that a desk keeps are plain numerals (`Genuine.plainResults`).
-/

namespace DeskCalculator

theorem isPlain_of_evaluate {expression shown : Text} {v : Float}
    (h : evaluate expression = .success v shown) : IsPlain shown := by
  obtain ⟨hfinite, rfl⟩ := evaluate_eq_success h
  obtain ⟨n, htext, -⟩ := exists_plain_display hfinite
  exact ⟨n, htext⟩

/-- What a pad keeps was found by evaluating. -/
structure Genuine (pad : Pad) : Prop where
  /-- The line of the latest result is that of a value. -/
  lastResult : ∀ line, pad.lastResult = some line →
    ∃ expression v shown, evaluate expression = .success v shown ∧ line = resultLine shown
  /-- A message is that of the buffer, margins aside. -/
  message : ∀ m, pad.message = some m → ∃ kind, evaluate (trim pad.buffer) = .failure kind m
  /-- Each entry has the outcome of its expression. -/
  history : ∀ entry ∈ pad.history, entry.outcome = evaluate entry.expression

theorem genuine_init : Genuine {} :=
  ⟨nofun, nofun, nofun⟩

section

variable {pad : Pad}

/-- An edit forgets the message; it touches neither the latest result nor the history. -/
theorem Genuine.edited {pad' : Pad} (h : Genuine pad) (hlast : pad'.lastResult = pad.lastResult)
    (hmessage : pad'.message = none) (hhistory : pad'.history = pad.history) : Genuine pad' where
  lastResult := fun line hline => h.lastResult line (hlast ▸ hline)
  message := fun _ hm => absurd (hmessage.symm.trans hm) nofun
  history := fun entry hentry => h.history entry (hhistory ▸ hentry)

theorem Genuine.append (h : Genuine pad) (text : Text) : Genuine (pad.append text) := by
  unfold Pad.append
  split
  · exact h
  · exact h.edited rfl rfl rfl

theorem Genuine.delete (h : Genuine pad) : Genuine pad.delete := by
  unfold Pad.delete
  split
  · exact h
  · exact h.edited rfl rfl rfl

theorem Genuine.record (h : Genuine pad) {entry : Entry}
    (hexpression : entry.expression = trim pad.buffer)
    (houtcome : entry.outcome = evaluate entry.expression) : Genuine (pad.record entry) := by
  have hhistory : ∀ e ∈ entry :: pad.history, e.outcome = evaluate e.expression := by
    intro e he
    rcases List.mem_cons.mp he with rfl | he
    · exact houtcome
    · exact h.history e he
  unfold Pad.record
  split
  · next v shown hout =>
    refine ⟨fun line hline => ?_, nofun, hhistory⟩
    exact ⟨entry.expression, v, shown, houtcome.symm.trans hout, (Option.some.inj hline).symm⟩
  · next kind message hout =>
    refine ⟨h.lastResult, fun m hm => ⟨kind, ?_⟩, hhistory⟩
    rw [← hexpression, ← houtcome, hout, Option.some.inj hm]

theorem Genuine.restore (h : Genuine pad) {entry : Entry} (hmem : entry ∈ pad.history) :
    Genuine (pad.restore entry) := by
  refine ⟨fun line hline => ?_, nofun, h.history⟩
  unfold Pad.restore at hline
  simp only at hline
  split at hline
  · next v shown hout =>
    exact ⟨entry.expression, v, shown, (h.history entry hmem).symm.trans hout,
      (Option.some.inj hline).symm⟩
  · cases hline

theorem Genuine.apply (h : Genuine pad) (stamp : Stamp) (intent : Intent) :
    Genuine (pad.apply evaluate stamp intent) := by
  cases intent with
  | append text => exact h.append text
  | delete => exact h.delete
  | clear => exact h.edited rfl rfl rfl
  | evaluate =>
    unfold Pad.apply Pad.due?
    simp only
    split
    · exact h
    · next hdue =>
      split at hdue
      · cases hdue
      · exact h.record (Option.some.inj hdue).symm rfl
  | clearHistory => exact ⟨h.lastResult, h.message, fun _ hmem => absurd hmem List.not_mem_nil⟩
  | switchTo name => exact ⟨h.lastResult, h.message, h.history⟩
  | other => exact h
  | use id =>
    unfold Pad.apply
    simp only
    split
    · exact h
    · next entry hfind => exact h.restore (List.mem_of_find?_eq_some hfind)

end

/-- **On every desk that is reached, what it keeps was found by evaluating.** -/
theorem genuine_dispatchAll (stamp : Nat → Stamp) (desk : Desk) (intents : List Intent)
    (h : Genuine desk.pad) : Genuine (desk.dispatchAll ⟨evaluate, stamp⟩ intents).pad := by
  induction intents generalizing desk with
  | nil => exact h
  | cons intent intents ih => exact ih _ (h.apply _ _)

/-- The results that a pad keeps are plain numerals. -/
structure PlainResults (pad : Pad) : Prop where
  lastResult : ∀ line, pad.lastResult = some line → ∃ shown, IsPlain shown ∧ line = resultLine shown
  history : ∀ entry ∈ pad.history, ∀ v shown, entry.outcome = .success v shown → IsPlain shown

theorem Genuine.plainResults {pad : Pad} (h : Genuine pad) : PlainResults pad where
  lastResult := fun line hline =>
    let ⟨_, _, shown, hvalue, hshown⟩ := h.lastResult line hline
    ⟨shown, isPlain_of_evaluate hvalue, hshown⟩
  history := fun entry hmem _ _ hout =>
    isPlain_of_evaluate ((h.history entry hmem).symm.trans hout)

end DeskCalculator
