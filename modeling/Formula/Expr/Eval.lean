import Formula.Expr
import Formula.Failure

/-!
# The value of a tree

* `Values`: what the names stand for.
* `UnaryOp.apply`, `BinaryOp.apply`: the value of an operation, or why it has none.
* **`Expr.eval`**: the value of a tree. Operands come first to last, and the first failure is the
  answer.
-/

namespace Formula

/-- What the names stand for; a name may stand for nothing. -/
abbrev Values := String → Option Float

namespace Values

def empty : Values := fun _ => none

/-- One more name stands for a value. -/
def bind (values : Values) (name : String) (value : Float) : Values :=
  fun other => if other = name then some value else values other

/-- The names of a list stand for the values they are listed with. -/
def ofList (bindings : List (String × Float)) : Values :=
  fun name => bindings.lookup name

end Values

/-- The value of the operation. Angles are in radians. -/
def UnaryOp.apply (op : UnaryOp) (x : Float) : Except EvalError Float :=
  match op with
  | .negate => .ok (-x)
  | .squareRoot => if x < 0 then .error (.negativeRoot x) else .ok x.sqrt
  | .sine => .ok x.sin
  | .cosine => .ok x.cos
  | .tangent => .ok x.tan

/-- The value of the operation. A logarithm in base one would divide by zero. -/
def BinaryOp.apply (op : BinaryOp) (x y : Float) : Except EvalError Float :=
  match op with
  | .add => .ok (x + y)
  | .subtract => .ok (x - y)
  | .multiply => .ok (x * y)
  | .divide => if y == 0 then .error (.zeroDivisor x) else .ok (x / y)
  | .power => .ok (x.pow y)
  | .logarithm =>
    if x ≤ 0 ∨ y ≤ 0 ∨ y == 1 then .error (.logarithmDomain x y) else .ok (x.log / y.log)

/-- **The value of the tree**, or its first failure from the left. -/
def Expr.eval (values : Values) : Expr → Except EvalError Float
  | const x => .ok x
  | var name =>
    match values name with
    | some x => .ok x
    | none => .error (.unboundName name)
  | unary op operand => do
    op.apply (← operand.eval values)
  | binary op first second => do
    let x ← first.eval values
    let y ← second.eval values
    op.apply x y

end Formula
