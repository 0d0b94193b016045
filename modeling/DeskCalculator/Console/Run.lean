import DeskCalculator.Console.Dialogue
import DeskCalculator.Console.Dump
import DeskCalculator.Console.Grammar
import DeskCalculator.Console.Options

/-!
# Runs

A run does what its options ask for: print the grammar, dump or evaluate expressions, or hold a
dialogue.  Expressions given as arguments are taken from there; otherwise lines are typed at a
prompt or read from the standard input, as the options say.  A raised fault ends any run.
-/

namespace DeskCalculator

/-- The lines that can be read, and whether the user interrupts where they end. -/
structure Feed where
  lines : List Text := []
  interrupted : Bool := false

/-- The lines of a text, without their line feeds. -/
def splitLines : Text → List Text
  | [] => []
  | c :: rest =>
    if c = '\n' then [] :: splitLines rest
    else
      match splitLines rest with
      | [] => [[c]]
      | line :: lines => (c :: line) :: lines

/-- A text with line feeds for its line ends: a carriage return ends a line too, together with a line
feed behind it. -/
def translateNewlines : Text → Text
  | [] => []
  | c :: rest =>
    if c ≠ '\r' then c :: translateNewlines rest
    else if rest.head? = some '\n' then translateNewlines rest
    else '\n' :: translateNewlines rest

/-- The lines that are read from a text. -/
def linesRead (text : Text) : List Text :=
  splitLines (translateNewlines text)

/-- The standard input of a text with line feeds for its line ends. -/
def Feed.ofText (text : Text) (interrupted : Bool) : Feed where
  lines := splitLines text
  interrupted := interrupted

/-- What a run has written, the calculator after it, the fault that has ended it if one was raised,
and the exit status. -/
structure Report where
  lines : List Line
  desk : Desk
  raised : Option Fault := none
  status : Nat := 0

namespace Run

/-- The line of an outcome. -/
def outcomeLine (outcome : Outcome) : Line :=
  match outcome with
  | .success _ shown => .output shown
  | .failure .. => .complaint outcome.text

/-- What a run writes first. -/
def opening (options : Options) : List Line :=
  match options.task with
  | some .grammar => grammarLines.map fun line => .output line.toList
  | some .dump => [Dump.heading]
  | none => []

/-- Dumps an expression. -/
def dump (desk : Desk) (expression : Text) : Answer :=
  { desk, lines := Dump.rows (trim expression), raised := Dump.raised? (trim expression) }

/-- Evaluates an expression on its own. -/
def execute (desk : Desk) (expression : Text) : Answer :=
  let notes := (Note.ofEvaluation expression).map Line.note
  match raised? expression with
  | none => { desk, lines := notes ++ [outcomeLine (evaluate expression)] }
  | some fault => { desk, lines := notes, raised := some fault }

/-- The reply to an expression given as an argument: its dump or its outcome. -/
def ofExpression (options : Options) (desk : Desk) (expression : Text) : Answer :=
  match options.task with
  | some .grammar => { desk }
  | some .dump => dump desk expression
  | none => execute desk expression

/-- The reply to a line that was read: its dump or the answer in the dialogue. -/
def reply? (stamp : Nat → Stamp) (options : Options) (desk : Desk) (line : Text) : Option Answer :=
  if options.task = some .dump then some (dump desk line) else Dialogue.answer? stamp desk line

/-- Whether a run reads lines. -/
def readsLines (options : Options) : Bool :=
  options.expressions.isNone && options.task != some .grammar

/-- Whether lines are typed at a prompt: if one is given that is not empty. -/
def asksAtPrompt (options : Options) : Bool :=
  options.prompt.any (!·.isEmpty)

/-- The lines that a run reads: those typed at the prompt or the standard input. -/
def feed (options : Options) (standardInput typed : Feed) : Feed :=
  if asksAtPrompt options then typed else standardInput

/-- The report of a run with given options that has ended with an answer. -/
def reportOf (options : Options) (answer : Answer) (interrupted : Bool) : Report where
  lines := opening options ++ answer.lines
  desk := answer.desk
  raised := answer.raised
  status := if answer.raised.isSome || interrupted then 1 else 0

/-- A run with given options on a calculator.  It ends with status one if a fault is raised or the
user interrupts it. -/
def report (stamp : Nat → Stamp) (options : Options) (standardInput typed : Feed) (desk : Desk) :
    Report :=
  if readsLines options then
    let feed := feed options standardInput typed
    let (answer, quit) := Dialogue.converse (reply? stamp options) desk feed.lines
    reportOf options answer (feed.interrupted && !quit)
  else
    let reply? := fun desk expression => some (ofExpression options desk expression)
    reportOf options (Dialogue.converse reply? desk (options.expressions.getD [])).1 false

/-- The exit status where there is nothing to run. -/
def refusalStatus : Refusal → Nat
  | .helpWanted => 0
  | .misuse => 2

end Run

/-- The text written to the output. -/
def Report.output (report : Report) : String :=
  String.join (report.lines.map Line.toOutput)

/-- The text written beside the output, without what the runtime says of a raised fault. -/
def Report.errors (verbose : Bool) (report : Report) : String :=
  String.join (report.lines.map (Line.toErrors verbose))

end DeskCalculator
