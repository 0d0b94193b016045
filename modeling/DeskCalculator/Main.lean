import DeskCalculator.Console.Run

/-!
# The command line program

Reads the arguments, answers the lines that are typed or piped in one by one, and writes what comes
of them.
-/

namespace DeskCalculator.Program

/-- The summary of the options. -/
def usage : String :=
  "usage: calculator [-h] [-v] [-e EXPRESSION ... | -p [PROMPT]] [-G | -D]\n"

/-- Writes lines, output and complaints each to their stream. -/
def writeLines (verbose : Bool) (lines : List Line) : IO Unit :=
  for line in lines do
    IO.print line.toOutput
    IO.eprint (line.toErrors verbose)

/-- Writes the message of a fault that was raised. -/
def writeRaised (raised : Option Fault) : IO Unit :=
  for fault in raised do
    IO.eprintln fault.message

/-- Names and dates for the entries that are made now. -/
def stampsNow : IO (Nat → Stamp) := do
  let now ← IO.monoMsNow
  return fun used => ⟨s!"entry-{used + 1}", now⟩

/-- Replies to lines until they end, the user quits or a fault is raised, and then returns the exit
status.  The lines that have been read and are waiting come first. -/
partial def serve (options : Options) (input : IO.FS.Stream) (desk : Desk) (waiting : List Text) :
    IO UInt32 := do
  match waiting with
  | line :: waiting =>
    match Run.reply? (← stampsNow) options desk line with
    | none => return 0
    | some answer =>
      writeLines options.verbose answer.lines
      if answer.raised.isSome then
        writeRaised answer.raised
        return 1
      serve options input answer.desk waiting
  | [] =>
    if Run.asksAtPrompt options then
      IO.print (String.ofList (options.prompt.getD []))
      (← IO.getStdout).flush
    let read ← input.getLine
    if read.isEmpty then
      return 0
    serve options input desk (linesRead read.toList)

end DeskCalculator.Program

open DeskCalculator DeskCalculator.Program

/-- Runs the program with its arguments. -/
def main (arguments : List String) : IO UInt32 := do
  match Options.read (arguments.map String.toList) with
  | .error refusal =>
    match refusal with
    | .helpWanted => IO.print usage
    | .misuse => IO.eprint usage
    return UInt32.ofNat (Run.refusalStatus refusal)
  | .ok options =>
    if Run.readsLines options then
      writeLines options.verbose (Run.opening options)
      serve options (← IO.getStdin) {} []
    else
      let report := Run.report (← stampsNow) options {} {} {}
      writeLines options.verbose report.lines
      writeRaised report.raised
      return UInt32.ofNat report.status
