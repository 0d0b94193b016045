import DeskCalculator.Fault
import DeskCalculator.Token

/-!
# The stack machine

Tokens in reverse Polish order are run on a stack of numbers, listed from its top.  A number or a
constant is pushed; an operation takes its operands from the top and pushes its value.  A machine
that stops says why and what is then on the stack: an operation that lacks operands takes none, one
that fails on its operands has taken them.
-/

namespace DeskCalculator

/-- Why a machine stopped, and its stack at that moment. -/
structure Halt where
  fault : Fault
  stack : List Float
  deriving DecidableEq

/-- What an operator or a function does. -/
inductive Operation where
  | unary (apply : Float → Except Fault Float)
  | binary (apply : Float → Float → Except Fault Float)

/-- The number of operands. -/
def Operation.arity : Operation → Nat
  | unary _ => 1
  | binary _ => 2

/-- A quotient.  Neither zero is a divisor. -/
def quotient (left right : Float) : Except Fault Float :=
  if right == 0 then .error .divisionByZero else .ok (left / right)

/-- The natural logarithm, of positive numbers only. -/
def logarithm (value : Float) : Except Fault Float :=
  if value ≤ 0 then .error .logarithmArgument else .ok value.log

/-- The square root, not of negative numbers. -/
def squareRoot (value : Float) : Except Fault Float :=
  if value < 0 then .error .rootArgument else .ok value.sqrt

/-- A function of the angle, which infinity is none of. -/
def ofAngle (f : Builtin) (apply : Float → Float) (angle : Float) : Except Fault Float :=
  if angle.isInf then .error (.cannotEvaluate f.name) else .ok (apply angle)

/-- A power.  Finite numbers have to have a finite power. -/
def power (base exponent : Float) : Except Fault Float :=
  let value := base.pow exponent
  if base.isFinite && exponent.isFinite && !value.isFinite then
    .error (.cannotEvaluate Builtin.pow.name)
  else .ok value

/-- What an operator does. -/
def Operator.operation : Operator → Operation
  | add => .binary fun left right => .ok (left + right)
  | subtract => .binary fun left right => .ok (left - right)
  | multiply => .binary fun left right => .ok (left * right)
  | divide => .binary quotient
  | percent => .unary fun value => .ok (value / 100)
  | negate => .unary fun value => .ok (-value)

/-- What a function does. -/
def Builtin.operation : Builtin → Operation
  | sin => .unary (ofAngle .sin Float.sin)
  | cos => .unary (ofAngle .cos Float.cos)
  | tan => .unary (ofAngle .tan Float.tan)
  | log => .unary logarithm
  | sqrt => .unary squareRoot
  | pow => .binary power

/-- The double nearest to a constant. -/
def Constant.value : Constant → Float
  | pi => Float.ofBits 0x400921FB54442D18
  | e => Float.ofBits 0x4005BF0A8B145769

namespace Machine

/-- Applies an operation to the top of the stack, where its last operand is. -/
def apply (stack : List Float) (operation : Operation) : Except Halt (List Float) :=
  match operation, stack with
  | .unary f, only :: rest =>
    match f only with
    | .ok value => .ok (value :: rest)
    | .error fault => .error ⟨fault, rest⟩
  | .binary f, right :: left :: rest =>
    match f left right with
    | .ok value => .ok (value :: rest)
    | .error fault => .error ⟨fault, rest⟩
  | _, _ => .error ⟨.underflow operation.arity, stack⟩

/-- Runs one token. -/
def feed (stack : List Float) : Token → Except Halt (List Float)
  | .number value => .ok (value :: stack)
  | .constant name =>
    match Constant.ofName? name with
    | some constant => .ok (constant.value :: stack)
    | none => .error ⟨.unknownConstant name, stack⟩
  | .operator op => apply stack op.operation
  | .function name =>
    match Builtin.ofName? name with
    | some f => apply stack f.operation
    | none => .error ⟨.unknownFunction name, stack⟩
  | token => .error ⟨.unexpected token.text, stack⟩

/-- Runs tokens in order, up to the first that stops the machine. -/
def feedAll (stack : List Float) : List Token → Except Halt (List Float)
  | [] => .ok stack
  | token :: tokens =>
    match feed stack token with
    | .ok stack' => feedAll stack' tokens
    | .error halt => .error halt

theorem feedAll_append (stack : List Float) (first second : List Token) :
    feedAll stack (first ++ second) =
      match feedAll stack first with
      | .ok stack' => feedAll stack' second
      | .error halt => .error halt := by
  induction first generalizing stack with
  | nil => rfl
  | cons token tokens ih =>
    simp only [List.cons_append, feedAll]
    cases feed stack token with
    | ok stack' => exact ih stack'
    | error halt => rfl

/-- Takes the one value off the stack.  It has to be finite; any other is taken off all the same. -/
def result : List Float → Except Halt Float
  | [value] => if value.isFinite then .ok value else .error ⟨.notFinite, []⟩
  | stack => .error ⟨.valueCount stack.length, stack⟩

/-- The value of tokens run on an empty stack. -/
def run (tokens : List Token) : Except Halt Float :=
  match feedAll [] tokens with
  | .ok stack => result stack
  | .error halt => .error halt

end Machine

end DeskCalculator
