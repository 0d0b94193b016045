import DeskCalculator.Proofs.Keypad.History

/-!
# What is calculated

The buffer, the latest result and the message make up the calculation (`Pad.calculation`). An intent
that does not use the history makes of the calculation what it makes of the whole pad
(`calculation_apply`), and an intent about the history or the screens leaves it as it is
(`calculation_apply_of_isAside`). So two desks with the same calculation have the same one after the
same intents, whether or not intents about the history and the screens are among them, and the same
expressions are evaluated on the way (`calculation_follow`, `calls_follow`): neither the history nor
the screen has any influence (`history_and_screen_ignored`).
-/

namespace DeskCalculator

/-- Intents about the history or the screens alone. -/
def Intent.isAside : Intent → Bool
  | .clearHistory | .switchTo _ => true
  | _ => false

/-- A pad without its history and at its first screen: all that it calculates with. -/
def Pad.calculation (pad : Pad) : Pad :=
  { pad with history := [], destination := .calculator }

section

variable {pad pad' : Pad} {intent : Intent}

theorem calculation_eq_iff : pad.calculation = pad'.calculation ↔
    pad.buffer = pad'.buffer ∧ pad.lastResult = pad'.lastResult ∧ pad.message = pad'.message := by
  simp [Pad.calculation]

theorem due?_calculation (pad : Pad) (intent : Intent) :
    pad.calculation.due? intent = pad.due? intent := by
  unfold Pad.due?
  rfl

theorem calculation_append (pad : Pad) (text : Text) :
    (pad.append text).calculation = pad.calculation.append text :=
  apply_ite Pad.calculation ..

theorem calculation_delete (pad : Pad) : pad.delete.calculation = pad.calculation.delete :=
  apply_ite Pad.calculation ..

/-- What is recorded of an entry is its outcome, the history aside. -/
theorem calculation_record {entry entry' : Entry} (h : pad.calculation = pad'.calculation)
    (hout : entry.outcome = entry'.outcome) :
    (pad.record entry).calculation = (pad'.record entry').calculation := by
  obtain ⟨hbuffer, hlast, -⟩ := calculation_eq_iff.mp h
  unfold Pad.record
  rw [hout]
  split
  · rfl
  · exact calculation_eq_iff.mpr ⟨hbuffer, hlast, rfl⟩

/-- **One intent on two pads with the same calculation**, whatever their histories, their screens
and the stamps are. -/
theorem calculation_apply (h : pad.calculation = pad'.calculation)
    (huse : ∀ id, intent ≠ .use id) (evaluate : Text → Outcome) (stamp stamp' : Stamp) :
    (pad.apply evaluate stamp intent).calculation =
      (pad'.apply evaluate stamp' intent).calculation := by
  cases intent with
  | append text =>
    show (pad.append text).calculation = (pad'.append text).calculation
    rw [calculation_append, calculation_append, h]
  | delete =>
    show pad.delete.calculation = pad'.delete.calculation
    rw [calculation_delete, calculation_delete, h]
  | clear =>
    obtain ⟨-, hlast, -⟩ := calculation_eq_iff.mp h
    exact calculation_eq_iff.mpr ⟨rfl, hlast, rfl⟩
  | evaluate =>
    have hdues : pad.due? .evaluate = pad'.due? .evaluate := by
      rw [← due?_calculation, h, due?_calculation]
    cases hdue : pad'.due? .evaluate with
    | some expression =>
      rw [apply_of_due hdue, apply_of_due (hdues.trans hdue)]
      exact calculation_record h rfl
    | none =>
      unfold Pad.apply
      simp only [hdue, hdues.trans hdue, h]
  | clearHistory => exact h
  | switchTo name => exact h
  | use id => exact absurd rfl (huse id)
  | other => exact h

theorem calculation_apply_of_isAside (h : intent.isAside = true) (evaluate : Text → Outcome)
    (stamp : Stamp) : (pad.apply evaluate stamp intent).calculation = pad.calculation := by
  cases intent with
  | clearHistory | switchTo name => rfl
  | _ => cases h

theorem due?_of_isAside (h : intent.isAside = true) (pad : Pad) : pad.due? intent = none := by
  cases intent with
  | clearHistory | switchTo name => rfl
  | _ => cases h

end

namespace Desk

variable {around around' : Surroundings} {desk desk' : Desk} {intent : Intent}
  {intents : List Intent}

/-- **Two desks at the same point of a calculation**: with the same calculation, after as many
evaluations. -/
structure Agrees (desk desk' : Desk) : Prop where
  calculation : desk.pad.calculation = desk'.pad.calculation
  recorded : desk.recorded = desk'.recorded

theorem Agrees.due? (h : Agrees desk desk') (intent : Intent) :
    desk.pad.due? intent = desk'.pad.due? intent := by
  rw [← due?_calculation, h.calculation, due?_calculation]

theorem Agrees.step (h : Agrees desk desk') (heval : around.evaluate = around'.evaluate)
    (huse : ∀ id, intent ≠ .use id) :
    Agrees (desk.step around intent) (desk'.step around' intent) := by
  constructor
  · show (desk.pad.apply (around.evaluate desk.recorded) _ intent).calculation =
      (desk'.pad.apply (around'.evaluate desk'.recorded) _ intent).calculation
    rw [heval, h.recorded]
    exact calculation_apply h.calculation huse _ _ _
  · show desk.recorded + (if (desk.pad.due? intent).isSome then 1 else 0) =
      desk'.recorded + if (desk'.pad.due? intent).isSome then 1 else 0
    rw [h.recorded, h.due?]

theorem Agrees.step_of_isAside (h : Agrees desk desk') (haside : intent.isAside = true) :
    Agrees (desk.step around intent) desk' := by
  constructor
  · exact (calculation_apply_of_isAside haside _ _).trans h.calculation
  · rw [recorded_step_of_not_due (due?_of_isAside haside _), h.recorded]

/-- **Intents on both desks**, on one of them without those about the history and the screens: the
desks agree in the end, and the same expressions have been evaluated. -/
theorem Agrees.follow (h : Agrees desk desk') (heval : around.evaluate = around'.evaluate)
    (huse : ∀ id, .use id ∉ intents) :
    Agrees (desk.follow around intents) (desk'.follow around' (intents.filter (!·.isAside))) ∧
      desk.calls around intents = desk'.calls around' (intents.filter (!·.isAside)) := by
  induction intents generalizing desk desk' with
  | nil => exact ⟨h, rfl⟩
  | cons intent intents ih =>
    have hrest : ∀ id, .use id ∉ intents := fun id hmem => huse id (List.mem_cons_of_mem _ hmem)
    cases haside : intent.isAside with
    | true =>
      rw [List.filter_cons_of_neg (by simp [haside]), calls, due?_of_isAside haside]
      exact ih (h.step_of_isAside haside) hrest
    | false =>
      rw [List.filter_cons_of_pos (by simp [haside]), calls, calls, h.due?]
      have hne : ∀ id, intent ≠ .use id := by
        rintro id rfl
        exact huse id List.mem_cons_self
      obtain ⟨hfollow, hcalls⟩ := ih (h.step heval hne) hrest
      exact ⟨hfollow, by rw [hcalls]⟩

end Desk

/-- **Neither the history nor the screen has any influence on the calculation.** Whatever the desk,
its surroundings and the intents are, as long as no entry of the history is used again: with any
other history and screen at the beginning, without the intents about the history and the screens,
and with other names and times for the entries, the buffer, the latest result and the message are
the same in the end, and the same expressions have been evaluated in the same order. -/
theorem history_and_screen_ignored (around around' : Surroundings)
    (heval : around.evaluate = around'.evaluate) (desk : Desk) (history : List Entry)
    (destination : Destination) {intents : List Intent} (huse : ∀ id, .use id ∉ intents) :
    let other : Desk := { desk with pad := { desk.pad with history, destination } }
    let kept := intents.filter (!·.isAside)
    (desk.follow around intents).pad.buffer = (other.follow around' kept).pad.buffer ∧
    (desk.follow around intents).pad.lastResult = (other.follow around' kept).pad.lastResult ∧
    (desk.follow around intents).pad.message = (other.follow around' kept).pad.message ∧
    desk.calls around intents = other.calls around' kept := by
  intro other kept
  have hagrees : Desk.Agrees desk other := ⟨rfl, rfl⟩
  obtain ⟨hfollow, hcalls⟩ := hagrees.follow heval huse
  obtain ⟨hbuffer, hlast, hmessage⟩ := calculation_eq_iff.mp hfollow.calculation
  exact ⟨hbuffer, hlast, hmessage, hcalls⟩

/-- Surroundings with the evaluator and the clock of those that tally, and with one name for all
entries. -/
def namelessSurroundings : Surroundings :=
  { tallySurroundings with newId := fun _ => "" }

/-- A sum is calculated, and between its keys the history is looked at and cleared. -/
def sumWithHistory : List Intent :=
  [.append ['2'], .evaluate, .switchTo Destination.history.name, .clearHistory, .append ['+'],
    .switchTo Destination.calculator.name, .append ['3'], .evaluate]

/-- On a desk with another history the keys of the sum alone give the same result. -/
theorem history_and_screen_ignored_sum :
    (tallySurroundings.evaluate = namelessSurroundings.evaluate ∧
      ∀ id, .use id ∉ sumWithHistory) ∧
    ∃ other : Desk, other.pad.history ≠ [] ∧ other.pad.destination = .history ∧
      (other.follow namelessSurroundings [.append ['2'], .evaluate, .append ['+'], .append ['3'],
        .evaluate]).pad.buffer = ['5'] ∧
      other.calls namelessSurroundings [.append ['2'], .evaluate, .append ['+'], .append ['3'],
        .evaluate] = [['2'], ['2', '+', '3']] := by
  have huse : ∀ id, .use id ∉ sumWithHistory := by
    intro id hmem
    simp [sumWithHistory] at hmem
  have hbuffer : (Desk.follow tallySurroundings {} sumWithHistory).pad.buffer = ['5'] := by
    decide +kernel
  have hcalls : Desk.calls tallySurroundings {} sumWithHistory = [['2'], ['2', '+', '3']] := by
    decide +kernel
  obtain ⟨hsame, -, -, hsameCalls⟩ :=
    history_and_screen_ignored tallySurroundings namelessSurroundings rfl {}
      [⟨"", 0, ['7'], .success 7 ['7']⟩] .history huse
  exact ⟨⟨rfl, huse⟩, _, List.cons_ne_nil _ _, rfl, hsame.symm.trans hbuffer,
    hsameCalls.symm.trans hcalls⟩

end DeskCalculator
