import DeskCalculator.Console.Line

/-!
# Dumps

A dump of an expression lists its tokens, with their kinds and the precedences of operators, and
then all of them in reverse Polish order.  A fault is written in its place, unless it is raised.
-/

namespace DeskCalculator

/-- The name of what a token is. -/
def Token.kindName : Token → Text
  | number _ => ['n', 'u', 'm', 'b', 'e', 'r']
  | operator _ => ['o', 'p', 'e', 'r', 'a', 't', 'o', 'r']
  | function _ => ['f', 'u', 'n', 'c', 't', 'i', 'o', 'n']
  | constant _ => ['c', 'o', 'n', 's', 't', 'a', 'n', 't']
  | leftParen => ['l', 'e', 'f', 't', '_', 'p', 'a', 'r', 'e', 'n']
  | rightParen => ['r', 'i', 'g', 'h', 't', '_', 'p', 'a', 'r', 'e', 'n']
  | comma => ['c', 'o', 'm', 'm', 'a']

namespace Dump

/-- The titles of the columns. -/
def heading : Line :=
  .output "<kind>\t<lexeme>\t<precedence>".toList

/-- The precedence of an operator, and nothing for other tokens. -/
def precedence : Token → Text
  | .operator op => Nat.toDigits 10 op.precedence
  | _ => []

/-- The row of a token. -/
def row (token : Token) : Line :=
  .output (token.kindName ++ '\t' :: quoted token.text ++ '\t' :: precedence token)

/-- The row of tokens in reverse Polish order. -/
def orderRow (tokens : List Token) : Line :=
  .output (['p', 'o', 's', 't', 'f', 'i', 'x', '\t'] ++ Token.texts tokens)

/-- What is written of a fault, unless it is raised. -/
def ofFault (fault : Fault) : List Line :=
  if fault.isRaised then [] else [.complaint fault.report]

/-- The rows of an expression, or the fault for which it has none. -/
def rows (expression : Text) : List Line :=
  match Token.tokenize expression with
  | .error fault => ofFault fault
  | .ok tokens =>
    .note (.tokens expression tokens) ::
      match ReversePolish.ofTokens tokens with
      | .error fault => ofFault fault
      | .ok ordered => .note (.ordered ordered) :: tokens.map row ++ [orderRow ordered]

/-- The fault that is raised where an expression is read for its dump, if one is. -/
def raised? (expression : Text) : Option Fault :=
  match Token.tokenize expression with
  | .error fault => if fault.isRaised then some fault else none
  | .ok _ => none

end Dump

end DeskCalculator
