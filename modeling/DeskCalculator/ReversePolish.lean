import DeskCalculator.Fault
import DeskCalculator.Token

/-!
# Reverse Polish order

An expression is reordered so that each operation follows its operands.  Operators, functions and
left parentheses wait on a stack until their operands are complete; every token releases some of
the waiting ones.  Only parentheses and commas are judged here: whether each operation has its
operands shows when the reordered tokens are run.
-/

namespace DeskCalculator

/-- What waits for its operands to be complete. -/
inductive Pending where
  | operator (op : Operator)
  | function (name : Text)
  | leftParen
  deriving DecidableEq, Repr

namespace Pending

/-- The token that waits. -/
def token : Pending → Token
  | operator op => .operator op
  | function name => .function name
  | leftParen => .leftParen

/-- Whether this is a left parenthesis. -/
def isParen : Pending → Bool
  | leftParen => true
  | _ => false

/-- Whether this is an operator that gets its operand before a given one is reached. -/
def yieldsTo (next : Operator) : Pending → Bool
  | operator op => op.outranks next
  | _ => false

end Pending

namespace ReversePolish

/-- The tokens above the innermost left parenthesis. -/
def group (stack : List Pending) : List Token :=
  (stack.takeWhile (!·.isParen)).map Pending.token

/-- The stack from the innermost left parenthesis on. -/
def enclosing (stack : List Pending) : List Pending :=
  stack.dropWhile (!·.isParen)

/-- One token of the expression: the tokens that it releases, and the stack after it.  A right
parenthesis also releases the function whose arguments it closes. -/
def shift (stack : List Pending) : Token → Except Fault (List Token × List Pending)
  | .number value => .ok ([.number value], stack)
  | .constant name => .ok ([.constant name], stack)
  | .function name => .ok ([], .function name :: stack)
  | .leftParen => .ok ([], .leftParen :: stack)
  | .comma =>
    match enclosing stack with
    | [] => .error .misplacedComma
    | rest => .ok (group stack, rest)
  | .operator op =>
    .ok ((stack.takeWhile (·.yieldsTo op)).map Pending.token,
      .operator op :: stack.dropWhile (·.yieldsTo op))
  | .rightParen =>
    match enclosing stack with
    | [] => .error .missingLeft
    | _ :: .function name :: rest => .ok (group stack ++ [.function name], rest)
    | _ :: rest => .ok (group stack, rest)

/-- What still waits at the end of the expression. -/
def finish (stack : List Pending) : Except Fault (List Token) :=
  if stack.any (·.isParen) then .error .missingRight else .ok (stack.map Pending.token)

/-- The remaining tokens in reverse Polish order, with what waits from the tokens before. -/
def reorder (stack : List Pending) : List Token → Except Fault (List Token)
  | [] => finish stack
  | token :: tokens =>
    match shift stack token with
    | .error fault => .error fault
    | .ok (released, stack') =>
      match reorder stack' tokens with
      | .error fault => .error fault
      | .ok later => .ok (released ++ later)

/-- The tokens of an expression in reverse Polish order. -/
def ofTokens (tokens : List Token) : Except Fault (List Token) :=
  reorder [] tokens

end ReversePolish

end DeskCalculator
