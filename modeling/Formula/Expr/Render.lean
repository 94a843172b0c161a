import Formula.Decimal.Numeral
import Formula.Expr

/-!
# The text of a tree

* `UnaryOp.around`, `BinaryOp.between`: the text of an operation with the texts of its operands.
* **`Expr.render`**: the text of a tree. All binary operations are in parentheses, so no binding has
  to be known to read it.
-/

namespace Formula

/-- The text of the operation with that of its operand. -/
def UnaryOp.around (op : UnaryOp) (operand : String) : String :=
  match op with
  | .negate => "-" ++ operand
  | op => op.symbol ++ "(" ++ operand ++ ")"

/-- The text of the operation with those of its operands. -/
def BinaryOp.between (op : BinaryOp) (first second : String) : String :=
  "(" ++ first ++ " " ++ op.symbol ++ " " ++ second ++ ")"

/-- **The text of the tree**, fully parenthesised. -/
def Expr.render : Expr → String
  | const x => Numeral.write x
  | var name => name
  | unary op operand => op.around operand.render
  | binary op first second => op.between first.render second.render

end Formula
