import Formula.Expr.Assembly
import Formula.Expr.Eval
import Formula.Token.Postfix
import Formula.Token.Scanner

/-!
# Reading a formula

* **`Expr.read`**: the tree that a text stands for, or the first stage's error.
* `evaluate`: the value of a text.
-/

namespace Formula

/-- **The tree that the text stands for.** It is split into tokens, these are put into postfix
order, and a tree is assembled from them. -/
def Expr.read (text : String) : Except ReadError Expr := do
  let tokens ← (Token.scan text).mapError .scan
  let ordered ← (Token.toPostfix tokens).mapError .paren
  (Expr.ofPostfix ordered).mapError .assembly

/-- The value of the text, where the names in it stand for the given values. -/
def evaluate (text : String) (values : Values) : Except Failure Float := do
  let e ← (Expr.read text).mapError .read
  (e.eval values).mapError .eval

end Formula
