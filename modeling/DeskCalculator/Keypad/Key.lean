import DeskCalculator.Text.Blank
import DeskCalculator.Text.Letter
import DeskCalculator.Token

/-!
# Keys and intents

A key is a typed character, a word or the name of a special key.  A key that the calculator knows
asks for something, its intent; `keystrokes` splits a typed text into keys, where a run of letters
is one key and blanks are none.
-/

namespace DeskCalculator

/-- The two screens. -/
inductive Destination where
  | calculator
  | history
  deriving DecidableEq, Repr

namespace Destination

/-- The name of a screen. -/
def name : Destination → Text
  | calculator => ['c', 'a', 'l', 'c', 'u', 'l', 'a', 't', 'o', 'r']
  | history => ['h', 'i', 's', 't', 'o', 'r', 'y']

/-- The screen of a name. -/
def ofName? (name : Text) : Option Destination :=
  [calculator, history].find? fun d => d.name == name

end Destination

/-- What the user asks of the calculator. -/
inductive Intent where
  /-- Put a text at the end of the buffer. -/
  | append (text : Text)
  /-- Take the last character off the buffer. -/
  | delete
  /-- Empty the buffer. -/
  | clear
  /-- Evaluate the buffer. -/
  | evaluate
  /-- Forget the history. -/
  | clearHistory
  /-- Go to the screen of a name. -/
  | switchTo (name : Text)
  /-- Put the expression of a history entry back into the buffer. -/
  | use (id : String)
  /-- Anything else: what is no intent, or puts something into the buffer that is no text. -/
  | other
  deriving DecidableEq, Repr

/-- A sign of an operator, as typed. -/
def isOperatorSign (c : Char) : Bool :=
  c == '+' || c == '-' || c == '*' || c == '/' || c == '%'

namespace Key

/-- The keys that act at once. -/
def actions : List (Text × Intent) :=
  [(['e', 'n', 't', 'e', 'r'], .evaluate),
   (['='], .evaluate),
   (['b', 'a', 'c', 'k', 's', 'p', 'a', 'c', 'e'], .delete),
   (['e', 's', 'c', 'a', 'p', 'e'], .clear),
   (['d', 'e', 'l', 'e', 't', 'e'], .clear)]

/-- The single characters that are put into the buffer. -/
def isSymbol (c : Char) : Bool :=
  ('0' ≤ c && c ≤ '9') || isOperatorSign c || c == '(' || c == ')' || c == ',' || c == '.'

/-- Whether a key is put into the buffer as it is: a symbol or a name. -/
def isAppendable : Text → Bool
  | [c] => isSymbol c || (Token.named? [c]).isSome
  | key => (Token.named? key).isSome

/-- What a key asks for; nothing if the calculator does not know it. -/
def intent? (key : Text) : Option Intent :=
  match actions.lookup key with
  | some intent => some intent
  | none => if isAppendable key then some (.append key) else none

/-- What a key of a typed text asks for: an unknown one is put into the buffer too. -/
def typed (key : Text) : Intent :=
  (intent? key).getD (.append key)

end Key

/-- The keys of a typed text: runs of letters, and the other characters that are not blank. -/
def keystrokes : Text → List Text
  | [] => []
  | c :: rest =>
    if isLetter c then (c :: rest.takeWhile isLetter) :: keystrokes (rest.dropWhile isLetter)
    else if isBlank c then keystrokes rest
    else [c] :: keystrokes rest
termination_by text => text.length
decreasing_by
  · exact Nat.lt_succ_of_le (List.dropWhile_sublist isLetter).length_le
  · exact Nat.lt_succ_self _
  · exact Nat.lt_succ_self _

end DeskCalculator
