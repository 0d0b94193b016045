import DeskCalculator.Fault
import DeskCalculator.Number.Numeral
import DeskCalculator.Text.Blank
import DeskCalculator.Text.Letter
import DeskCalculator.Token

/-!
# Reading tokens

A text falls into runs of letters, runs of digits and points, blanks, and single characters.  A run
of letters has to be a name, a run that begins like a number has to be a numeral, and any other
character has to be an operator or punctuation.  `lex` reads the runs from the left and stops at
the first that is none of these; the tokens before it are kept.

The literal that a run begins with is read before it is asked whether the run ends there, so a
literal with a digit that has no value is the fault, whatever follows it (`faultOfRun`).

A minus is the sign of the operand that follows it where no operand can end, that is at the
beginning and after an operator, a left parenthesis or a comma.
-/

namespace DeskCalculator

/-- The tokens read from a text, and the fault at which reading stopped if it did. -/
structure Lexed where
  tokens : List Token := []
  fault : Option Fault := none
  deriving DecidableEq

/-- With a token put in front. -/
def Lexed.after (token : Token) (lexed : Lexed) : Lexed :=
  { lexed with tokens := token :: lexed.tokens }

/-- Belongs to the run of a number: a decimal digit or a point. -/
def isNumeric (c : Char) : Bool :=
  isPatternDigit c || c == '.'

/-- Whether a text begins like a number: with a digit, or with a point and a digit. -/
def beginsNumber : Text → Bool
  | [] => false
  | c :: rest => isPatternDigit c || (c == '.' && rest.head?.any isPatternDigit)

/-- The literal that a run of digits and points begins with: digits, and the first point with the
digits behind it. -/
def literal (run : Text) : Text :=
  let rest := run.dropWhile isPatternDigit
  run.takeWhile isPatternDigit ++ rest.take 1 ++ (rest.drop 1).takeWhile isPatternDigit

/-- The fault of a run that begins like a number and is none: its literal cannot be read, or does not
end the run. -/
def faultOfRun (run : Text) : Fault :=
  if (Numeral.read? (literal run)).isNone then .unreadableNumber (literal run)
  else .malformedNumber run

namespace Token

/-- Whether a minus after this token is the sign of an operand. -/
def allowsSign : Option Token → Bool
  | none | some (operator _) | some leftParen | some comma => true
  | _ => false

/-- The token of a single character after the previous token. -/
def symbol? (previous : Option Token) : Char → Option Token
  | '+' => some (operator .add)
  | '-' => some (operator (if allowsSign previous then .negate else .subtract))
  | '*' => some (operator .multiply)
  | '/' => some (operator .divide)
  | '%' => some (operator .percent)
  | '(' => some leftParen
  | ')' => some rightParen
  | ',' => some comma
  | _ => none

theorem length_dropWhile_lt (p : Char → Bool) (c : Char) (rest : Text) :
    (rest.dropWhile p).length < (c :: rest).length :=
  Nat.lt_succ_of_le (List.dropWhile_sublist p).length_le

/-- The tokens of a text that follows the previous token. -/
def lexAfter (previous : Option Token) : Text → Lexed
  | [] => {}
  | c :: rest =>
    if isBlank c then lexAfter previous rest
    else if isLetter c then
      let word := c :: rest.takeWhile isLetter
      match named? word with
      | some token => (lexAfter (some token) (rest.dropWhile isLetter)).after token
      | none => { fault := some (.unknownIdentifier word) }
    else if beginsNumber (c :: rest) then
      let run := c :: rest.takeWhile isNumeric
      match Numeral.read? run with
      | some value =>
        (lexAfter (some (number value)) (rest.dropWhile isNumeric)).after (number value)
      | none => { fault := some (faultOfRun run) }
    else
      match symbol? previous c with
      | some token => (lexAfter (some token) rest).after token
      | none => { fault := some (.unknownCharacter c) }
termination_by text => text.length
decreasing_by
  · exact Nat.lt_succ_self _
  · exact length_dropWhile_lt isLetter c rest
  · exact length_dropWhile_lt isNumeric c rest
  · exact Nat.lt_succ_self _

/-- The tokens of a text up to the first fault. -/
def lex (text : Text) : Lexed :=
  lexAfter none text

/-- The tokens of a text without fault. -/
def tokenize (text : Text) : Except Fault (List Token) :=
  let lexed := lex text
  match lexed.fault with
  | none => .ok lexed.tokens
  | some fault => .error fault

end Token

end DeskCalculator
