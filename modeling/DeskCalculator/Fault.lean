import DeskCalculator.Text.Quoted

/-!
# Faults

A fault is the reason why an expression has no value.  Each belongs to a kind, which tells the stage
or the concern that found it, and has a message for the user.  Faults of two kinds are no answer to
what the user has typed: they are raised, and end what the program is doing (`Fault.isRaised`).
-/

namespace DeskCalculator

/-- What a fault is about. -/
inductive FaultKind where
  | divideByZero
  | domainError
  | stackUnderflow
  | invalidSyntax
  | mismatchedParentheses
  | unknownToken
  | unknownName
  | unreadableNumber
  deriving DecidableEq, Repr

/-- Why an expression has no value. -/
inductive Fault where
  /-- The text has nothing but margins. -/
  | emptyExpression
  /-- A character that begins no lexeme. -/
  | unknownCharacter (c : Char)
  /-- A run of letters that names nothing. -/
  | unknownIdentifier (word : Text)
  /-- A run of digits and points that is no numeral. -/
  | malformedNumber (run : Text)
  /-- A literal with digits that have no value. -/
  | unreadableNumber (literal : Text)
  /-- A comma outside all parentheses. -/
  | misplacedComma
  /-- A right parenthesis without a left one. -/
  | missingLeft
  /-- A left parenthesis without a right one. -/
  | missingRight
  /-- An operation that takes more operands than there are. -/
  | underflow (arity : Nat)
  /-- A number of values other than one at the end. -/
  | valueCount (left : Nat)
  /-- Punctuation where the machine expects a value or an operation. -/
  | unexpected (symbol : Text)
  | divisionByZero
  /-- The logarithm of a number that is not positive. -/
  | logarithmArgument
  /-- The square root of a negative number. -/
  | rootArgument
  /-- A function outside its domain, or a power of finite numbers that is not finite. -/
  | cannotEvaluate (name : Text)
  /-- A final value that is infinite or undefined. -/
  | notFinite
  /-- A constant that the machine does not know. -/
  | unknownConstant (name : Text)
  /-- A function that the machine does not know. -/
  | unknownFunction (name : Text)
  deriving DecidableEq, Repr

namespace FaultKind

/-- The name of a kind. -/
def name : FaultKind → String
  | divideByZero => "DivideByZero"
  | domainError => "DomainError"
  | stackUnderflow => "StackUnderflow"
  | invalidSyntax => "InvalidSyntax"
  | mismatchedParentheses => "MismatchedParentheses"
  | unknownToken => "UnknownToken"
  | unknownName => "UnknownName"
  | unreadableNumber => "UnreadableNumber"

/-- Whether the faults of a kind are raised and not answered. -/
def isRaised : FaultKind → Bool
  | unknownName | unreadableNumber => true
  | _ => false

end FaultKind

namespace Fault

/-- The kind of a fault. -/
def kind : Fault → FaultKind
  | emptyExpression | misplacedComma | valueCount _ | unexpected _ => .invalidSyntax
  | unknownCharacter _ | unknownIdentifier _ | malformedNumber _ => .unknownToken
  | missingLeft | missingRight => .mismatchedParentheses
  | underflow _ => .stackUnderflow
  | divisionByZero => .divideByZero
  | logarithmArgument | rootArgument | cannotEvaluate _ | notFinite => .domainError
  | unknownConstant _ | unknownFunction _ => .unknownName
  | unreadableNumber _ => .unreadableNumber

/-- Whether a fault ends what the program is doing. -/
def isRaised (fault : Fault) : Bool :=
  fault.kind.isRaised

/-- What the user is told. -/
def message : Fault → String
  | emptyExpression => "Expression is empty"
  | unknownCharacter c => "Unknown character '" ++ String.singleton c ++ "'"
  | unknownIdentifier word => "Unknown identifier '" ++ String.ofList word ++ "'"
  | malformedNumber run => "Malformed number '" ++ String.ofList run ++ "'"
  | unreadableNumber literal =>
    "could not convert string to float: " ++ String.ofList (quoted literal)
  | misplacedComma => "Misplaced comma"
  | missingLeft => "Missing '('"
  | missingRight => "Missing ')'"
  | underflow arity => "Less than " ++ toString arity ++ " operand(s) on stack"
  | valueCount left => "Expected a single value, " ++ toString left ++ " left on stack"
  | unexpected symbol => "Unexpected '" ++ String.ofList symbol ++ "'"
  | divisionByZero => "Division by zero"
  | logarithmArgument => "Logarithm argument must be positive"
  | rootArgument => "Square root argument must be non-negative"
  | cannotEvaluate name => "Cannot evaluate " ++ String.ofList name
  | notFinite => "Result is not a finite number"
  | unknownConstant name => "Unknown constant " ++ String.ofList (quoted name)
  | unknownFunction name => String.ofList (quoted name)

/-- The kind and the message on one line. -/
def report (fault : Fault) : String :=
  fault.kind.name ++ ": " ++ fault.message

end Fault

end DeskCalculator
