import DeskCalculator.Number.Layout

/-!
# Tokens

The words of an expression: numbers, operators, names of functions and constants, parentheses and
commas.  A name is kept as it was written; `Builtin.ofName?` and `Constant.ofName?` say what it
stands for, if anything.
-/

namespace DeskCalculator

/-- The operators.  `negate` is the minus before an operand, `percent` follows its operand. -/
inductive Operator where
  | add
  | subtract
  | multiply
  | divide
  | percent
  | negate
  deriving DecidableEq, Repr

/-- The functions. -/
inductive Builtin where
  | sin
  | cos
  | tan
  | log
  | sqrt
  | pow
  deriving DecidableEq, Repr

/-- The constants. -/
inductive Constant where
  | pi
  | e
  deriving DecidableEq, Repr

/-- A word of an expression. -/
inductive Token where
  | number (value : Float)
  | operator (op : Operator)
  | function (name : Text)
  | constant (name : Text)
  | leftParen
  | rightParen
  | comma
  deriving DecidableEq

namespace Operator

/-- How an operator is written in dumps: the minus before an operand as a tilde. -/
def symbol : Operator → Text
  | add => ['+']
  | subtract => ['-']
  | multiply => ['*']
  | divide => ['/']
  | percent => ['%']
  | negate => ['~']

/-- The higher, the tighter an operator binds. -/
def precedence : Operator → Nat
  | add | subtract => 2
  | multiply | divide => 3
  | percent => 4
  | negate => 5

/-- Whether operators of one precedence group to the left. -/
def leftAssociative : Operator → Bool
  | negate => false
  | _ => true

/-- Whether an operator still waiting for its right operand gets it before a later operator is
reached. -/
def outranks (waiting next : Operator) : Bool :=
  next.precedence < waiting.precedence ||
    (waiting.precedence == next.precedence && next.leftAssociative)

end Operator

namespace Builtin

/-- All functions. -/
def all : List Builtin :=
  [sin, cos, tan, log, sqrt, pow]

/-- The name of a function. -/
def name : Builtin → Text
  | sin => ['s', 'i', 'n']
  | cos => ['c', 'o', 's']
  | tan => ['t', 'a', 'n']
  | log => ['l', 'o', 'g']
  | sqrt => ['s', 'q', 'r', 't']
  | pow => ['p', 'o', 'w']

/-- The function of a name. -/
def ofName? (name : Text) : Option Builtin :=
  all.find? fun f => f.name == name

theorem ofName?_eq_some_iff {name : Text} {f : Builtin} :
    ofName? name = some f ↔ f.name = name := by
  constructor
  · intro h
    simpa using List.find?_some h
  · rintro rfl
    cases f <;> decide

end Builtin

namespace Constant

/-- All constants. -/
def all : List Constant :=
  [pi, e]

/-- The name of a constant. -/
def name : Constant → Text
  | pi => ['p', 'i']
  | e => ['e']

/-- The constant of a name. -/
def ofName? (name : Text) : Option Constant :=
  all.find? fun k => k.name == name

theorem ofName?_eq_some_iff {name : Text} {k : Constant} :
    ofName? name = some k ↔ k.name = name := by
  constructor
  · intro h
    simpa using List.find?_some h
  · rintro rfl
    cases k <;> decide

end Constant

namespace Token

/-- The token that a word stands for: a function or a constant. -/
def named? (word : Text) : Option Token :=
  if (Builtin.ofName? word).isSome then some (function word)
  else if (Constant.ofName? word).isSome then some (constant word)
  else none

/-- How a token is written in dumps. -/
def text : Token → Text
  | number value => Layout.trace.write value
  | operator op => op.symbol
  | function name | constant name => name
  | leftParen => ['(']
  | rightParen => [')']
  | comma => [',']

/-- The texts of tokens with a space between neighbours. -/
def texts (tokens : List Token) : Text :=
  [' '].intercalate (tokens.map text)

end Token

end DeskCalculator
