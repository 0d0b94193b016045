import DeskCalculator.Keypad.Desk
import DeskCalculator.Text.Quoted

/-!
# Lines written

What a run writes is a list of lines: output, complaints, and notes about what is going on.  Notes
are written only if they are asked for, between the complaints.
-/

namespace DeskCalculator

/-- What can be noted while the calculator works. -/
inductive Note where
  /-- The tokens of a text were read. -/
  | tokens (text : Text) (tokens : List Token)
  /-- The tokens were put into reverse Polish order. -/
  | ordered (tokens : List Token)
  /-- The machine ended with a value. -/
  | value (value : Float)
  /-- An expression has no value. -/
  | failed (expression : Text) (fault : Fault)
  /-- An intent is carried out. -/
  | dispatching (intent : Intent)
  /-- A command was given. -/
  | command (name argument : Text)
  deriving DecidableEq

/-- A line written. -/
inductive Line where
  | output (text : Text)
  | complaint (message : String)
  | note (note : Note)
  deriving DecidableEq

/-- How an intent is noted. -/
def Intent.description : Intent → String
  | append text => "Append(text=" ++ String.ofList (quoted text) ++ ")"
  | delete => "Delete()"
  | clear => "Clear()"
  | evaluate => "Evaluate()"
  | clearHistory => "ClearHistory()"
  | switchTo name => "SwitchDestination(destination=" ++ String.ofList (quoted name) ++ ")"
  | use id => "UseHistoryEntry(entry_id=" ++ String.ofList (quoted id.toList) ++ ")"
  | other => "None"

namespace Note

/-- The part of the calculator that a note is from. -/
def source : Note → String
  | tokens .. => "lexer"
  | ordered .. => "shunting"
  | value .. => "machine"
  | failed .. => "engine"
  | dispatching .. => "session"
  | command .. => "cli"

/-- What a note says. -/
def message : Note → String
  | tokens text read =>
    "Tokens for " ++ String.ofList (quoted text) ++ ": " ++ String.ofList (Token.texts read)
  | ordered order => "Postfix: " ++ String.ofList (Token.texts order)
  | value result => "Result: " ++ String.ofList (Layout.trace.write result)
  | failed expression fault =>
    "Evaluating " ++ String.ofList (quoted expression) ++ " failed: " ++ fault.report
  | dispatching intent => "Dispatching " ++ intent.description
  | command name argument =>
    "Command " ++ String.ofList name ++ " " ++ String.ofList (quoted argument)

/-- A note on one line. -/
def text (note : Note) : String :=
  "calccraft." ++ note.source ++ " - DEBUG - " ++ note.message

/-- The notes of an expression without value: a raised fault has none. -/
def ofFault (expression : Text) (fault : Fault) : List Note :=
  if fault.isRaised then [] else [failed expression fault]

/-- The notes of evaluating an expression. -/
def ofEvaluation (expression : Text) : List Note :=
  if trim expression = [] then []
  else
    match Token.tokenize expression with
    | .error fault => ofFault expression fault
    | .ok read =>
      tokens expression read ::
        match ReversePolish.ofTokens read with
        | .error fault => ofFault expression fault
        | .ok order =>
          ordered order ::
            match Machine.run order with
            | .error halt => ofFault expression halt.fault
            | .ok result => [value result]

end Note

namespace Line

/-- What a line writes to the output. -/
def toOutput : Line → String
  | output text => String.ofList text ++ "\n"
  | _ => ""

/-- What a line writes beside the output, with or without notes. -/
def toErrors (verbose : Bool) : Line → String
  | output _ => ""
  | complaint message => message ++ "\n"
  | note event => if verbose then event.text ++ "\n" else ""

end Line

end DeskCalculator
