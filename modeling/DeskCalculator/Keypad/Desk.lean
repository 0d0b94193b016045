import DeskCalculator.Keypad.Pad

/-!
# A calculator in use

A desk is a pad together with the number of entries it has recorded, which is where the stamps for
new entries have come to.  Each intent replaces the pad as a whole.
-/

namespace DeskCalculator

/-- What a calculator is given: how to evaluate, and the stamps of its entries in order. -/
structure Supply where
  evaluate : Text → Outcome
  stamp : Nat → Stamp

/-- A pad, and the number of stamps used. -/
structure Desk where
  pad : Pad := {}
  recorded : Nat := 0
  deriving DecidableEq

namespace Desk

variable (supply : Supply)

/-- After an intent.  A stamp is used for each evaluation that is made. -/
def dispatch (desk : Desk) (intent : Intent) : Desk where
  pad := desk.pad.apply supply.evaluate (supply.stamp desk.recorded) intent
  recorded := desk.recorded + if (desk.pad.due? intent).isSome then 1 else 0

/-- After intents in order. -/
def dispatchAll (desk : Desk) (intents : List Intent) : Desk :=
  intents.foldl (dispatch supply) desk

/-- After a key.  An unknown one does nothing. -/
def press (desk : Desk) (key : Text) : Desk :=
  match Key.intent? key with
  | some intent => desk.dispatch supply intent
  | none => desk

/-- After the keys of a typed text, each doing what it asks for. -/
def type (desk : Desk) (text : Text) : Desk :=
  desk.dispatchAll supply ((keystrokes text).map Key.typed)

end Desk

end DeskCalculator
