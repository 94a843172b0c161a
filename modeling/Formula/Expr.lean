import Formula.Operator

/-!
# Expression trees

* `Expr`: a formula as a tree.
* `Expr.height`: the number of its levels.
* `Expr.beq`: the same tree, with constants compared as floats.
* `Expr.names`: the names it needs a value for, each once.
-/

namespace Formula

/-- A formula as a tree. -/
inductive Expr where
  | const (value : Float)
  | var (name : String)
  | unary (op : UnaryOp) (operand : Expr)
  | binary (op : BinaryOp) (first second : Expr)
  deriving DecidableEq

namespace Expr

/-- The number of levels of the tree. A leaf has one. -/
def height : Expr → Nat
  | const _ | var _ => 1
  | unary _ operand => operand.height + 1
  | binary _ first second => max first.height second.height + 1

/-- Whether two trees have the same nodes, where constants count as the same if they are equal as
floats: a zero equals its negative, and no number differs from itself. -/
def beq : Expr → Expr → Bool
  | const x, const y => x == y
  | var m, var n => m == n
  | unary f a, unary g b => f == g && a.beq b
  | binary f a b, binary g c d => f == g && a.beq c && b.beq d
  | _, _ => false

instance : BEq Expr := ⟨beq⟩

/-- The names collected so far with those of the tree behind them, if they are new. -/
def collectNames (names : List String) : Expr → List String
  | const _ => names
  | var name => if name ∈ names then names else names ++ [name]
  | unary _ operand => operand.collectNames names
  | binary _ first second => second.collectNames (first.collectNames names)

/-- **The names of the variables in the tree**, each once, in the order in which they first appear.
-/
def names (e : Expr) : List String :=
  e.collectNames []

end Expr

end Formula
