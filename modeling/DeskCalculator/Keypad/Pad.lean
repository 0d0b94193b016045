import DeskCalculator.Evaluation
import DeskCalculator.Keypad.Key
import DeskCalculator.Text.Digit

/-!
# The calculator's state

A pad holds the buffer being typed, the line of the latest result, the message of the latest
failure, and the history of evaluations, newest first.  `Pad.apply` is the pad after an intent.  How
an expression is evaluated and how a new history entry is stamped are parameters; they matter to the
intent `evaluate` only, and only where `Pad.due?` says that an expression is due.
-/

namespace DeskCalculator

/-- The name and the time of a history entry, in milliseconds. -/
structure Stamp where
  id : String
  timestamp : Int
  deriving DecidableEq, Repr

/-- An evaluation that was made. -/
structure Entry where
  id : String
  timestamp : Int
  expression : Text
  outcome : Outcome
  deriving DecidableEq

/-- The state of the calculator. -/
structure Pad where
  /-- The expression being typed. -/
  buffer : Text := []
  /-- The line of the latest result. -/
  lastResult : Option Text := none
  /-- The message of a failure that is still shown. -/
  message : Option String := none
  /-- The evaluations made, newest first. -/
  history : List Entry := []
  destination : Destination := .calculator
  deriving DecidableEq

/-- The line that shows a result. -/
def resultLine (shown : Text) : Text :=
  '=' :: ' ' :: shown

/-- Ends the number being typed: a sign of an operator or a parenthesis. -/
def isSeparator (c : Char) : Bool :=
  isOperatorSign c || c == '(' || c == ')'

/-- What follows the last separator of a buffer. -/
def segment (buffer : Text) : Text :=
  (buffer.reverse.takeWhile (!isSeparator ·)).reverse

/-- Whether a text typed after a result goes on with it: the sign of an operator. -/
def continuesResult : Text → Bool
  | [c] => isOperatorSign c
  | _ => false

/-- Whether a left parenthesis after this buffer is a multiplication: after a digit symbol or a
right parenthesis, margins aside. -/
def impliesProduct (buffer : Text) : Bool :=
  match (trimRight buffer).getLast? with
  | some c => isDigitSymbol c || c == ')'
  | none => false

namespace Pad

/-- Whether the buffer is the latest result, as it was shown. -/
def showsResult (pad : Pad) : Bool :=
  pad.lastResult == some (resultLine pad.buffer)

/-- What a typed text is put after.  A failed expression is dropped, and so is a shown result unless
the text goes on with it; a lone zero makes room for anything but a point. -/
def base (pad : Pad) (text : Text) : Text :=
  let kept :=
    if pad.message.isSome || (pad.showsResult && !continuesResult text) then [] else pad.buffer
  if kept = ['0'] ∧ text ≠ ['.'] then [] else kept

/-- After typing a text.  A second point in one number is refused, and a left parenthesis directly
after an operand gets its multiplication sign. -/
def append (pad : Pad) (text : Text) : Pad :=
  if text = [] ∨ (text = ['.'] ∧ '.' ∈ segment pad.buffer) then pad
  else
    let base := pad.base text
    let text := if text = ['('] ∧ impliesProduct base then ['*', '('] else text
    { pad with buffer := base ++ text, message := none }

/-- Without the last character of the buffer. -/
def delete (pad : Pad) : Pad :=
  if pad.buffer = [] then pad else { pad with buffer := pad.buffer.dropLast, message := none }

/-- With an empty buffer.  The latest result stays until the next evaluation. -/
def clear (pad : Pad) : Pad :=
  { pad with buffer := [], message := none }

/-- With a new entry and its outcome on the screen.  A failed expression stays to be mended. -/
def record (pad : Pad) (entry : Entry) : Pad :=
  match entry.outcome with
  | .success _ shown =>
    { pad with
      buffer := shown
      lastResult := some (resultLine shown)
      message := none
      history := entry :: pad.history }
  | .failure _ message =>
    { pad with message := some message, history := entry :: pad.history }

/-- With the expression of a history entry in the buffer, and the screen as it was after it. -/
def restore (pad : Pad) (entry : Entry) : Pad :=
  { pad with
    buffer := entry.expression
    lastResult :=
      match entry.outcome with
      | .success _ shown => some (resultLine shown)
      | .failure _ _ => none
    message := none
    destination := .calculator }

/-- The expression that an intent has evaluated: the buffer without its margins, if there is
anything in it. -/
def due? (pad : Pad) : Intent → Option Text
  | .evaluate => if trim pad.buffer = [] then none else some (trim pad.buffer)
  | _ => none

/-- The pad after an intent.  An evaluation that has nothing to evaluate, an unknown screen, the use
of an entry that does not exist, and whatever is no intent change nothing. -/
def apply (evaluate : Text → Outcome) (stamp : Stamp) (pad : Pad) (intent : Intent) : Pad :=
  match intent with
  | .append text => pad.append text
  | .delete => pad.delete
  | .clear => pad.clear
  | .evaluate =>
    match pad.due? .evaluate with
    | none => pad
    | some expression => pad.record ⟨stamp.id, stamp.timestamp, expression, evaluate expression⟩
  | .clearHistory => { pad with history := [] }
  | .switchTo name =>
    { pad with destination := (Destination.ofName? name).getD pad.destination }
  | .use id =>
    match pad.history.find? (·.id == id) with
    | none => pad
    | some entry => pad.restore entry
  | .other => pad

/-- The two lines of the screen: the buffer, and below it the message or else the latest result. -/
def screen (pad : Pad) : Text × String :=
  (pad.buffer, pad.message.getD (String.ofList (pad.lastResult.getD [])))

end Pad

end DeskCalculator
