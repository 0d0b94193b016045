import DeskCalculator.Machine

/-!
# Expressions and their writings

An expression is a tree of operations over numbers and constants. Two readings of a tree are fixed
here: `value`, by direct recursion (left operand, right operand, then the node; whether the number
is finite is asked of the final one only), and `postOrder`, its tokens with every operation after
its operands.

`Writes level e tokens` says that `tokens` is an infix writing of `e` where operators below `level`
need parentheses: sums and differences are of level 2, products and quotients of level 3, both
grouped to the left; a percentage is of level 4 and a negation of level 5. Parentheses around any
part are allowed everywhere, any number of times.
-/

namespace DeskCalculator

/-- The operators between two operands. -/
inductive BinaryOperator where
  | add
  | subtract
  | multiply
  | divide
  deriving DecidableEq, Repr

namespace BinaryOperator

/-- The token's operator. -/
def operator : BinaryOperator → Operator
  | add => .add
  | subtract => .subtract
  | multiply => .multiply
  | divide => .divide

/-- The higher, the tighter it binds. -/
def level : BinaryOperator → Nat
  | add | subtract => 2
  | multiply | divide => 3

/-- What it does to its operands. -/
def apply : BinaryOperator → Float → Float → Except Fault Float
  | add, left, right => .ok (left + right)
  | subtract, left, right => .ok (left - right)
  | multiply, left, right => .ok (left * right)
  | divide, left, right => quotient left right

theorem precedence_operator (op : BinaryOperator) : op.operator.precedence = op.level := by
  cases op <;> rfl

theorem leftAssociative_operator (op : BinaryOperator) : op.operator.leftAssociative = true := by
  cases op <;> rfl

end BinaryOperator

/-- The functions of one argument. -/
inductive UnaryFunction where
  | sin
  | cos
  | tan
  | log
  | sqrt
  deriving DecidableEq, Repr

namespace UnaryFunction

/-- The function that its name stands for. -/
def builtin : UnaryFunction → Builtin
  | sin => .sin
  | cos => .cos
  | tan => .tan
  | log => .log
  | sqrt => .sqrt

/-- What it does to its argument. -/
def apply : UnaryFunction → Float → Except Fault Float
  | sin, x => ofAngle .sin Float.sin x
  | cos, x => ofAngle .cos Float.cos x
  | tan, x => ofAngle .tan Float.tan x
  | log, x => logarithm x
  | sqrt, x => squareRoot x

end UnaryFunction

/-- An expression as a tree. -/
inductive Expression where
  | number (value : Float)
  | constant (name : Constant)
  | negate (operand : Expression)
  | percent (operand : Expression)
  | binary (op : BinaryOperator) (left right : Expression)
  | call (f : UnaryFunction) (argument : Expression)
  | power (base exponent : Expression)

namespace Expression

/-- The value of a part of an expression, which may be infinite or undefined. The first fault met
decides. -/
def eval : Expression → Except Fault Float
  | number v => .ok v
  | constant k => .ok k.value
  | negate e => e.eval.map fun x => -x
  | percent e => e.eval.map fun x => x / 100
  | binary op l r => l.eval.bind fun x => r.eval.bind fun y => op.apply x y
  | call f a => a.eval.bind fun x => f.apply x
  | power b e => b.eval.bind fun x => e.eval.bind fun y => DeskCalculator.power x y

/-- **The value of an expression**, which has to be finite. -/
def value (e : Expression) : Except Fault Float :=
  e.eval.bind fun v => if v.isFinite then .ok v else .error .notFinite

/-- **The tokens of an expression**, every operation after its operands. -/
def postOrder : Expression → List Token
  | number v => [.number v]
  | constant k => [.constant k.name]
  | negate e => e.postOrder ++ [.operator .negate]
  | percent e => e.postOrder ++ [.operator .percent]
  | binary op l r => l.postOrder ++ r.postOrder ++ [.operator op.operator]
  | call f a => a.postOrder ++ [.function f.builtin.name]
  | power b e => b.postOrder ++ e.postOrder ++ [.function Builtin.pow.name]

/-! ### Infix writings -/

/-- **The infix writings of an expression** as part of a larger one that asks for `level`. -/
inductive Writes : Nat → Expression → List Token → Prop
  | number {level : Nat} (v : Float) : Writes level (number v) [.number v]
  | constant {level : Nat} (k : Constant) : Writes level (constant k) [.constant k.name]
  | negate {level : Nat} {e : Expression} {ts : List Token} (hl : level ≤ 5)
      (he : Writes 5 e ts) : Writes level (negate e) (.operator .negate :: ts)
  | percent {level : Nat} {e : Expression} {ts : List Token} (hl : level ≤ 4)
      (he : Writes 4 e ts) : Writes level (percent e) (ts ++ [.operator .percent])
  | binary {level : Nat} {op : BinaryOperator} {l r : Expression} {ls rs : List Token}
      (hl : level ≤ op.level) (hleft : Writes op.level l ls) (hright : Writes (op.level + 1) r rs) :
      Writes level (binary op l r) (ls ++ .operator op.operator :: rs)
  | call {level : Nat} {f : UnaryFunction} {a : Expression} {ts : List Token}
      (ha : Writes 0 a ts) :
      Writes level (call f a) (.function f.builtin.name :: .leftParen :: ts ++ [.rightParen])
  | power {level : Nat} {b e : Expression} {bs es : List Token} (hb : Writes 0 b bs)
      (he : Writes 0 e es) :
      Writes level (power b e)
        (.function Builtin.pow.name :: .leftParen :: bs ++ .comma :: es ++ [.rightParen])
  | parenthesised {level : Nat} {e : Expression} {ts : List Token} (he : Writes 0 e ts) :
      Writes level e (.leftParen :: ts ++ [.rightParen])

theorem exists_writes (e : Expression) (level : Nat) : ∃ tokens, Writes level e tokens := by
  induction e generalizing level with
  | number v => exact ⟨_, .number v⟩
  | constant k => exact ⟨_, .constant k⟩
  | negate e ih =>
    obtain ⟨ts, h⟩ := ih 5
    exact ⟨_, .parenthesised (.negate (Nat.zero_le _) h)⟩
  | percent e ih =>
    obtain ⟨ts, h⟩ := ih 4
    exact ⟨_, .parenthesised (.percent (Nat.zero_le _) h)⟩
  | binary op l r ihl ihr =>
    obtain ⟨ls, hls⟩ := ihl op.level
    obtain ⟨rs, hrs⟩ := ihr (op.level + 1)
    exact ⟨_, .parenthesised (.binary (Nat.zero_le _) hls hrs)⟩
  | call f a ih =>
    obtain ⟨ts, h⟩ := ih 0
    exact ⟨_, .call h⟩
  | power b e ihb ihe =>
    obtain ⟨bs, hbs⟩ := ihb 0
    obtain ⟨es, hes⟩ := ihe 0
    exact ⟨_, .power hbs hes⟩

end Expression

end DeskCalculator
