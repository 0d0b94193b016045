import DeskCalculator.Console.Line
import DeskCalculator.Text.Integer

/-!
# Dialogue

A dialogue answers lines one by one.  A line is typed into the calculator and evaluated, unless it
begins with a colon: then it is a command.  `Dialogue.answer?` is the answer to one line;
`Dialogue.converse` collects the replies to many lines, which end early where the user quits or a
fault is raised.
-/

namespace DeskCalculator

/-- The commands. -/
inductive Command where
  | clear
  | delete
  | clearHistory
  | calculator
  | history
  | use
  deriving DecidableEq, Repr

namespace Command

/-- All commands. -/
def all : List Command :=
  [clear, delete, clearHistory, calculator, history, use]

/-- The name of a command. -/
def name : Command → Text
  | clear => [':', 'c', 'l', 'e', 'a', 'r']
  | delete => [':', 'd', 'e', 'l', 'e', 't', 'e']
  | clearHistory => [':', 'c', 'l', 'e', 'a', 'r', '-', 'h', 'i', 's', 't', 'o', 'r', 'y']
  | calculator => ':' :: Destination.calculator.name
  | history => ':' :: Destination.history.name
  | use => [':', 'u', 's', 'e']

/-- The command of a name. -/
def ofName? (name : Text) : Option Command :=
  all.find? fun command => command.name == name

end Command

/-- What a line has led to, and the fault that was raised if one was: then nothing comes after it. -/
structure Answer where
  desk : Desk
  lines : List Line := []
  raised : Option Fault := none
  deriving DecidableEq

namespace Dialogue

variable (stamp : Nat → Stamp)

/-- What the calculator of a dialogue is given. -/
def supply : Supply where
  evaluate := evaluate
  stamp := stamp

/-- The notes of an intent. -/
def notes (desk : Desk) (intent : Intent) : List Line :=
  .note (.dispatching intent) ::
    match desk.pad.due? intent with
    | some expression => (Note.ofEvaluation expression).map Line.note
    | none => []

/-- Carries out intents in order. -/
def perform (desk : Desk) : List Intent → Answer
  | [] => { desk }
  | intent :: intents =>
    let later := perform (desk.dispatch (supply stamp) intent) intents
    { later with lines := notes desk intent ++ later.lines }

/-- The message of a failure, or else the buffer if there is anything in it. -/
def shown (pad : Pad) : List Line :=
  match pad.message with
  | some message => [.complaint message]
  | none => if pad.buffer = [] then [] else [.output pad.buffer]

/-- Carries out intents and shows what has become of the buffer. -/
def performAndShow (desk : Desk) (intents : List Intent) : Answer :=
  let answer := perform stamp desk intents
  { answer with lines := answer.lines ++ shown answer.desk.pad }

/-- Types the keys of a line, as they are. -/
def strike (desk : Desk) (line : Text) : Answer :=
  perform stamp desk ((keystrokes line).map .append)

/-- The intents of a typed line: its keys, as they are, and an evaluation. -/
def typing (line : Text) : List Intent :=
  (keystrokes line).map .append ++ [.evaluate]

/-- Types a line and evaluates it.  An empty line does not evaluate a result again. -/
def enter (desk : Desk) (line : Text) : Answer :=
  if line = [] ∧ desk.pad.showsResult then { desk }
  else performAndShow stamp desk (typing line)

/-- The fault that is raised where a line is entered, if one is: by the evaluation of the buffer. -/
def raisedBy? (desk : Desk) (line : Text) : Option Fault :=
  if line = [] ∧ desk.pad.showsResult then none
  else ((strike stamp desk line).desk.pad.due? .evaluate).bind raised?

/-- Enters a line.  If its evaluation raises a fault, the keys have been typed and nothing is
shown. -/
def tryEnter (desk : Desk) (line : Text) : Answer :=
  match raisedBy? stamp desk line with
  | none => enter stamp desk line
  | some fault =>
    let struck := strike stamp desk line
    { struck with lines := struck.lines ++ notes struck.desk .evaluate, raised := some fault }

/-- The entry of a number.  The newest entry has number one; zero and the numbers below it count on
from the oldest entry towards the newest. -/
def numbered? (history : List Entry) (number : Int) : Option Entry :=
  if 1 ≤ number then history[(number - 1).toNat]?
  else if -number < history.length then history[history.length - 1 - (-number).toNat]?
  else none

/-- A line of the history: the number of the entry, its expression and its outcome. -/
def historyLine (entry : Entry) (number : Nat) : Line :=
  .output (Nat.toDigits 10 number ++ '\t' :: entry.expression ++ '\t' :: entry.outcome.text.toList)

/-- The history, newest entry first, with the numbers of the entries. -/
def historyLines (history : List Entry) : List Line :=
  (history.zipIdx 1).map fun (entry, number) => historyLine entry number

/-- The name and the argument of a command: what is before and after its first space. -/
def splitCommand (line : Text) : Text × Text :=
  (line.takeWhile (· != ' '), (line.dropWhile (· != ' ')).drop 1)

/-- Obeys the command of a name with an argument. -/
def obey (desk : Desk) (name argument : Text) : Answer :=
  match Command.ofName? name with
  | some .clear => performAndShow stamp desk [.clear]
  | some .delete => performAndShow stamp desk [.delete]
  | some .clearHistory => perform stamp desk [.clearHistory]
  | some .calculator => perform stamp desk [.switchTo Destination.calculator.name]
  | some .history =>
    let answer := perform stamp desk [.switchTo Destination.history.name]
    { answer with lines := answer.lines ++ historyLines answer.desk.pad.history }
  | some .use =>
    match (readInteger? argument).bind (numbered? desk.pad.history) with
    | some entry => performAndShow stamp desk [.use entry.id]
    | none =>
      { desk, lines := [.complaint ("No such history entry " ++ String.ofList (quoted argument))] }
  | none => { desk, lines := [.complaint ("Unknown command " ++ String.ofList (quoted name))] }

/-- Obeys a command. -/
def command (desk : Desk) (line : Text) : Answer :=
  let (name, argument) := splitCommand line
  let answer := obey stamp desk name argument
  { answer with lines := .note (.command name argument) :: answer.lines }

/-- The answer to a line, margins aside; nothing if the user quits. -/
def answer? (desk : Desk) (line : Text) : Option Answer :=
  let line := trim line
  if line = [':', 'q', 'u', 'i', 't'] then none
  else if line.head? = some ':' then some (command stamp desk line)
  else some (tryEnter stamp desk line)

/-- The replies to lines in order, up to one that raises a fault, and whether the user has quit. -/
def converse (reply? : Desk → Text → Option Answer) (desk : Desk) : List Text → Answer × Bool
  | [] => ({ desk }, false)
  | line :: lines =>
    match reply? desk line with
    | none => ({ desk }, true)
    | some reply =>
      if reply.raised.isSome then (reply, false)
      else
        let (later, quit) := converse reply? reply.desk lines
        ({ later with lines := reply.lines ++ later.lines }, quit)

end Dialogue

end DeskCalculator
