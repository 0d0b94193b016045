import DeskCalculator.Proofs.Keypad.History
import DeskCalculator.Proofs.Keypad.Screen

/-!
# Replaying an entry

The entries of a reached desk were recorded by evaluations since the history was last cleared
(`exists_log_eq_history`). So each holds an expression without margins, with its outcome
(`faithful_of_mem`), and no two have one name if no name comes twice (`nodup_id_reached`). An entry
that is used again comes back into the buffer as it was evaluated, and evaluating it once more
records the same expression with the same outcome (`apply_evaluate_restore`). What is then on the
screen is what the entry tells (`replay_reproduces`).
-/

namespace DeskCalculator

/-! ### The entries of a reached desk -/

namespace Desk

variable {around : Surroundings} {desk : Desk} {intents : List Intent} {entry : Entry}

theorem exists_buffer_of_mem_log (h : entry ∈ desk.log around intents) :
    ∃ buffer, trim buffer ≠ [] ∧ entry.expression = trim buffer := by
  induction intents generalizing desk with
  | nil => cases h
  | cons intent intents ih =>
    cases hdue : desk.pad.due? intent with
    | some expression =>
      rw [log_cons_of_due hdue] at h
      rcases List.mem_cons.mp h with rfl | hlater
      · obtain ⟨-, hne, hexpression⟩ := due?_eq_some_iff.mp hdue
        exact ⟨desk.pad.buffer, hne, hexpression⟩
      · exact ih hlater
    | none =>
      rw [log_cons_of_not_due hdue] at h
      exact ih h

/-- **The history of a desk that began without one** is the log of the evaluations since it was last
cleared. -/
theorem exists_log_eq_history (around : Surroundings) (desk : Desk) (intents : List Intent)
    (hdesk : desk.pad.history = []) : ∃ (start : Desk) (after : List Intent),
      (desk.follow around intents).pad.history = (start.log around after).reverse := by
  obtain ⟨before, after, rfl, hafter, hbefore⟩ := exists_split_clearHistory intents
  have hnone : (desk.follow around before).pad.history = [] := by
    rcases hbefore with rfl | hlast
    · exact hdesk
    · exact history_follow_of_getLast? hlast
  refine ⟨desk.follow around before, after, ?_⟩
  rw [follow_append, history_follow hafter, hnone, List.append_nil]

end Desk

variable {stamp : Nat → Stamp} {intents : List Intent} {entry : Entry}

/-- An entry that an evaluation has left: it holds an expression without margins, with its
outcome. -/
structure Entry.Faithful (entry : Entry) : Prop where
  trimmed : trim entry.expression = entry.expression
  ne_nil : entry.expression ≠ []
  outcome : entry.outcome = evaluate entry.expression

theorem exists_log_eq_reached (stamp : Nat → Stamp) (intents : List Intent) :
    ∃ (around : Surroundings) (start : Desk) (after : List Intent),
      around.newId = (fun n => (stamp n).id) ∧
      (reached stamp intents).pad.history = (start.log around after).reverse := by
  obtain ⟨start, after, hhistory⟩ := Desk.exists_log_eq_history
    ⟨fun _ => evaluate, fun n => (stamp n).id, fun n => (stamp n).timestamp⟩ {} intents rfl
  exact ⟨_, start, after, rfl, hhistory⟩

theorem faithful_of_mem (hmem : entry ∈ (reached stamp intents).pad.history) : entry.Faithful := by
  obtain ⟨around, start, after, -, hhistory⟩ := exists_log_eq_reached stamp intents
  have hlog : entry ∈ start.log around after := by
    rwa [hhistory, List.mem_reverse] at hmem
  obtain ⟨buffer, hne, hexpression⟩ := Desk.exists_buffer_of_mem_log hlog
  refine ⟨?_, ?_, (genuine_reached intents).history entry hmem⟩
  · rw [hexpression, trim_trim]
  · rwa [hexpression]

theorem nodup_id_reached (hnew : Function.Injective fun n => (stamp n).id)
    (intents : List Intent) : ((reached stamp intents).pad.history.map Entry.id).Nodup := by
  obtain ⟨around, start, after, hid, hhistory⟩ := exists_log_eq_reached stamp intents
  rw [hhistory, List.map_reverse, List.nodup_reverse]
  exact Desk.nodup_id_log (hid ▸ hnew)

/-! ### Using and evaluating an entry -/

/-- **A faithful entry that is used again is evaluated as it was**: what is recorded is the entry
with a new stamp. -/
theorem apply_evaluate_restore (h : entry.Faithful) (pad : Pad) (stamp : Stamp) :
    (pad.restore entry).apply evaluate stamp .evaluate =
      (pad.restore entry).record { entry with id := stamp.id, timestamp := stamp.timestamp } := by
  have hdue : (pad.restore entry).due? .evaluate = some entry.expression := by
    refine due?_eq_some_iff.mpr ⟨rfl, ?_, h.trimmed.symm⟩
    show trim entry.expression ≠ []
    rw [h.trimmed]
    exact h.ne_nil
  rw [apply_of_due hdue, ← h.outcome]

/-- **An entry is reproduced**: one new entry with its expression and its outcome is on top of the
history, which is the same below, and the screen of the calculator shows what the entry tells. A
result is in the buffer and is the latest one, without a message; behind a failure the expression
stays in the buffer, with the message. -/
structure Reproduces (before : Pad) (entry : Entry) (after : Pad) : Prop where
  history : ∃ new, after.history = new :: before.history ∧ new.expression = entry.expression ∧
    new.outcome = entry.outcome
  destination : after.destination = .calculator
  success : ∀ value shown, entry.outcome = .success value shown →
    after.message = none ∧ after.buffer = shown ∧ after.lastResult = some (resultLine shown)
  failure : ∀ kind message, entry.outcome = .failure kind message →
    after.message = some message ∧ after.buffer = entry.expression ∧ after.lastResult = none

theorem reproduces_record_restore (pad : Pad) (entry : Entry) (stamp : Stamp) :
    Reproduces pad entry
      ((pad.restore entry).record { entry with id := stamp.id, timestamp := stamp.timestamp }) := by
  refine ⟨⟨_, history_record _ _, rfl, rfl⟩, ?_, fun value shown houtcome => ?_,
    fun kind message houtcome => ?_⟩
  · unfold Pad.record
    split <;> rfl
  · unfold Pad.record
    simp only [houtcome, and_self]
  · unfold Pad.record Pad.restore
    simp only [houtcome, and_self]

/-- **Replaying an entry reproduces it.** On every desk that is reached, whatever the intents were,
if no name of an entry comes twice: the use of any entry of the history and an evaluation reproduce
the entry. -/
theorem replay_reproduces (stamp : Nat → Stamp) (hnew : Function.Injective fun n => (stamp n).id)
    (intents : List Intent) {entry : Entry}
    (hmem : entry ∈ (reached stamp intents).pad.history) :
    Reproduces (reached stamp intents).pad entry
      (reached stamp (intents ++ [.use entry.id] ++ [.evaluate])).pad := by
  have huse : (reached stamp (intents ++ [.use entry.id])).pad =
      (reached stamp intents).pad.restore entry := by
    rw [pad_reached_append]
    exact apply_use_of_mem (nodup_id_reached hnew intents) hmem _ _
  rw [pad_reached_append, huse, apply_evaluate_restore (faithful_of_mem hmem)]
  exact reproduces_record_restore _ _ _

/-- Stamps of the surroundings that tally. -/
def tallyStamp (used : Nat) : Stamp :=
  ⟨tallySurroundings.newId used, tallySurroundings.clock used⟩

/-- A quotient, and its result divided by zero. -/
def quotientsByZero : List Intent :=
  [.append [' ', '6', '/', '4', ' '], .evaluate, .append ['/'], .append ['0'], .evaluate]

/-- The first quotient is replayed after the second one has failed. -/
theorem replay_reproduces_quotient :
    (Function.Injective (fun n => (tallyStamp n).id) ∧
      (⟨"", 0, ['6', '/', '4'], .success 1.5 ['1', '.', '5']⟩ : Entry) ∈
        (reached tallyStamp quotientsByZero).pad.history) ∧
    (reached tallyStamp (quotientsByZero ++ [.use ""] ++ [.evaluate])).pad.buffer =
      ['1', '.', '5'] := by
  have hnew : Function.Injective fun n => (tallyStamp n).id := by
    intro m n h
    simpa [tallyStamp, tallySurroundings] using congrArg String.length h
  have hmem : (⟨"", 0, ['6', '/', '4'], .success 1.5 ['1', '.', '5']⟩ : Entry) ∈
      (reached tallyStamp quotientsByZero).pad.history := by decide +kernel
  have hreproduces := replay_reproduces tallyStamp hnew quotientsByZero hmem
  exact ⟨⟨hnew, hmem⟩, (hreproduces.success _ _ rfl).2.1⟩

end DeskCalculator
