import DeskCalculator.Proofs.Keypad.History
import DeskCalculator.Proofs.Keypad.Results

/-!
# What all texts of a pad have

The texts of a pad are its buffer and the expressions of its history. A buffer is made by typing, and
otherwise it is a part of an earlier one, a result or an expression of the history. So a property that
parts of a text take over and results have (`Lasting`) is one of all texts of a pad, as long as typing
keeps it (`throughout_dispatchAll`).
-/

namespace DeskCalculator

/-- **All texts of a pad** have a property: the buffer and the expressions of the history. -/
structure Throughout (p : Text → Prop) (pad : Pad) : Prop where
  buffer : p pad.buffer
  history : ∀ entry ∈ pad.history, p entry.expression

/-- **A property that lasts** without typing. -/
structure Lasting (p : Text → Prop) : Prop where
  nil : p []
  dropLast : ∀ text, p text → p text.dropLast
  trim : ∀ text, p text → p (trim text)
  plain : ∀ text, IsPlain text → p text

/-- Typing keeps a property of the buffer. -/
def KeptByTyping (p : Text → Prop) (key : Text) : Prop :=
  ∀ pad : Pad, p pad.buffer → p (pad.append key).buffer

variable {p : Text → Prop} {pad : Pad}

theorem Lasting.throughout_init (hp : Lasting p) : Throughout p {} :=
  ⟨hp.nil, fun _ hmem => absurd hmem List.not_mem_nil⟩

theorem Throughout.append (h : Throughout p pad) {key : Text} (hkey : KeptByTyping p key) :
    Throughout p (pad.append key) := by
  refine ⟨hkey pad h.buffer, ?_⟩
  have hhistory : (pad.append key).history = pad.history := by
    unfold Pad.append
    split <;> rfl
  rw [hhistory]
  exact h.history

theorem Throughout.delete (h : Throughout p pad) (hp : Lasting p) : Throughout p pad.delete := by
  unfold Pad.delete
  split
  · exact h
  · exact ⟨hp.dropLast _ h.buffer, h.history⟩

theorem Throughout.record (h : Throughout p pad) (hp : Lasting p) {entry : Entry}
    (hexpression : entry.expression = trim pad.buffer)
    (houtcome : entry.outcome = evaluate entry.expression) : Throughout p (pad.record entry) := by
  have hhistory : ∀ e ∈ entry :: pad.history, p e.expression :=
    List.forall_mem_cons.mpr ⟨hexpression ▸ hp.trim _ h.buffer, h.history⟩
  unfold Pad.record
  split
  · next v shown hout =>
    exact ⟨hp.plain _ (isPlain_of_evaluate (houtcome.symm.trans hout)), hhistory⟩
  · exact ⟨h.buffer, hhistory⟩

theorem Throughout.apply (h : Throughout p pad) (hp : Lasting p) (stamp : Stamp) {intent : Intent}
    (hkey : ∀ key, intent = .append key → KeptByTyping p key) :
    Throughout p (pad.apply evaluate stamp intent) := by
  cases intent with
  | append key => exact h.append (hkey key rfl)
  | delete => exact h.delete hp
  | clear => exact ⟨hp.nil, h.history⟩
  | evaluate =>
    cases hdue : pad.due? .evaluate with
    | some expression =>
      obtain ⟨-, -, rfl⟩ := due?_eq_some_iff.mp hdue
      rw [apply_of_due hdue]
      exact h.record hp rfl rfl
    | none =>
      unfold Pad.apply
      simp only [hdue]
      exact h
  | clearHistory => exact ⟨h.buffer, fun _ hmem => absurd hmem List.not_mem_nil⟩
  | switchTo name => exact ⟨h.buffer, h.history⟩
  | use id =>
    unfold Pad.apply
    simp only
    split
    · exact h
    · next entry hfind => exact ⟨h.history entry (List.mem_of_find?_eq_some hfind), h.history⟩
  | other => exact h

/-- **On every desk that is reached** a property that lasts is kept, if typing keeps it. -/
theorem throughout_dispatchAll (hp : Lasting p) (stamp : Nat → Stamp) {desk : Desk}
    {intents : List Intent} (hkeys : ∀ key, Intent.append key ∈ intents → KeptByTyping p key)
    (h : Throughout p desk.pad) :
    Throughout p (desk.dispatchAll ⟨evaluate, stamp⟩ intents).pad := by
  induction intents generalizing desk with
  | nil => exact h
  | cons intent intents ih =>
    refine ih (fun key hmem => hkeys key (List.mem_cons_of_mem _ hmem)) (h.apply hp _ ?_)
    rintro key rfl
    exact hkeys key List.mem_cons_self

end DeskCalculator
