import DeskCalculator.Machine
import DeskCalculator.ReversePolish
import DeskCalculator.Token.Lexer

/-!
# Evaluation

The value of an expression: its tokens are read, put into reverse Polish order and run.  The first
stage that fails decides the fault.  The outcome is what is shown and kept: the value with its
displayed form, or the kind of the fault with its message.  Where a fault is raised (`raised?`) there
is nothing to show or to keep, and it is for the program to end.
-/

namespace DeskCalculator

/-- What came of evaluating an expression. -/
inductive Outcome where
  | success (value : Float) (shown : Text)
  | failure (kind : FaultKind) (message : String)
  deriving DecidableEq

/-- The outcome on one line. -/
def Outcome.text : Outcome → String
  | success _ shown => String.ofList shown
  | failure kind message => kind.name ++ ": " ++ message

/-- The value of an expression. -/
def valueOf (expression : Text) : Except Fault Float :=
  if trim expression = [] then .error .emptyExpression
  else
    match Token.tokenize expression with
    | .error fault => .error fault
    | .ok tokens =>
      match ReversePolish.ofTokens tokens with
      | .error fault => .error fault
      | .ok ordered =>
        match Machine.run ordered with
        | .error halt => .error halt.fault
        | .ok value => .ok value

/-- The outcome of evaluating an expression. -/
def evaluate (expression : Text) : Outcome :=
  match valueOf expression with
  | .ok value => .success value (Layout.display.write value)
  | .error fault => .failure fault.kind fault.message

/-- The fault that evaluating an expression raises, if it does. -/
def raised? (expression : Text) : Option Fault :=
  match valueOf expression with
  | .ok _ => none
  | .error fault => if fault.isRaised then some fault else none

end DeskCalculator
