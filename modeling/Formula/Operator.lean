/-!
# Operators

* `UnaryOp`, `BinaryOp`: the operations a formula is made of; `Operator` is either.
* `Operator.symbol`: the spelling of an operator.
* `Operator.priority`: how strongly an operator binds its operands.
* **`Operator.goesBefore`**: which of two neighbouring operators is applied first.
-/

namespace Formula

/-- The operations with one operand. -/
inductive UnaryOp where
  | negate
  | squareRoot
  | sine
  | cosine
  | tangent
  deriving DecidableEq

/-- The operations with two operands. `logarithm` takes the base second. -/
inductive BinaryOp where
  | add
  | subtract
  | multiply
  | divide
  | power
  | logarithm
  deriving DecidableEq

/-- An operation with one or with two operands. -/
inductive Operator where
  | unary (op : UnaryOp)
  | binary (op : BinaryOp)
  deriving DecidableEq

/-! ## Spelling -/

/-- The spelling of the operation. That of negation is told apart from subtraction, and so is not
the one read in a formula. -/
def UnaryOp.symbol : UnaryOp → String
  | .negate => "u-"
  | .squareRoot => "sqrt"
  | .sine => "sin"
  | .cosine => "cos"
  | .tangent => "tan"

def BinaryOp.symbol : BinaryOp → String
  | .add => "+"
  | .subtract => "-"
  | .multiply => "*"
  | .divide => "/"
  | .power => "^"
  | .logarithm => "log"

namespace Operator

def symbol : Operator → String
  | unary op => op.symbol
  | binary op => op.symbol

/-- Whether the operator is spelled with letters, and could begin a longer name. -/
def isWord : Operator → Bool
  | unary .negate => false
  | unary _ => true
  | binary .logarithm => true
  | binary _ => false

/-- Whether the operator is written in front of its only operand. -/
def isUnary : Operator → Bool
  | unary _ => true
  | binary _ => false

/-! ## Binding -/

/-- How strongly the operator binds; a greater number binds tighter. -/
def priority : Operator → Nat
  | unary _ => 9
  | binary .power | binary .logarithm => 8
  | binary .multiply | binary .divide => 7
  | binary .add | binary .subtract => 6

/-- **Whether a waiting operator is applied before the incoming one takes its place.** Those of one
priority go in the order they are written; a unary one completes nothing on its left. -/
def goesBefore (waiting incoming : Operator) : Bool :=
  !incoming.isUnary && incoming.priority ≤ waiting.priority

end Operator

end Formula
