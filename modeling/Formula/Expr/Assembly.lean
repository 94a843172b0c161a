import Formula.Expr
import Formula.Failure
import Formula.Token

/-!
# Assembling a tree

Tokens in postfix order are assembled into a tree from left to right. Finished subtrees lie on a
stack; an operator takes its operands from the top and puts the joined tree back.

* `maxHeight`: the number of levels a tree may have.
* `Subtree`: a finished subtree, with its height at hand.
* `Assembly.step`: one token.
* **`Expr.ofPostfix`**: the tree that the tokens make up, or the first reason why there is none.
-/

namespace Formula

/-- The number of levels a tree may have. -/
def maxHeight : Nat := 1024

/-- A finished subtree, with its height at hand. -/
structure Subtree where
  expr : Expr
  height : Nat
  height_eq : expr.height = height

namespace Subtree

def const (x : Float) : Subtree := ⟨.const x, 1, rfl⟩

def var (name : String) : Subtree := ⟨.var name, 1, rfl⟩

/-- The tree of a unary operation, one level higher than its operand. -/
def unary (op : UnaryOp) (operand : Subtree) : Subtree :=
  ⟨.unary op operand.expr, operand.height + 1, by simp [Expr.height, operand.height_eq]⟩

/-- The tree of a binary operation, one level higher than the higher operand. -/
def binary (op : BinaryOp) (first second : Subtree) : Subtree :=
  ⟨.binary op first.expr second.expr, max first.height second.height + 1, by
    simp [Expr.height, first.height_eq, second.height_eq]⟩

/-- The subtree itself, unless it has too many levels. -/
def checkHeight (tree : Subtree) : Except AssemblyError Subtree :=
  if maxHeight < tree.height then .error (.tooHigh maxHeight) else .ok tree

end Subtree

namespace Assembly

/-- An operator takes the two newest subtrees. A unary one has its operand in the newest, so the
other belongs to an operator still to come, and goes back. -/
def reduce (op : Operator) (stack : List Subtree) : Except AssemblyError (List Subtree) :=
  let newest := stack.head?
  let older := stack.tail.head?
  let below := stack.drop 2
  match op with
  | .unary f =>
    match newest with
    | none => .error (.missingOperand op.symbol)
    | some operand => do
      let tree ← (Subtree.unary f operand).checkHeight
      return tree :: (older.toList ++ below)
  | .binary f =>
    match newest, older with
    | none, _ => .error (.missingRight op.symbol)
    | some _, none => .error (.missingLeft op.symbol)
    | some second, some first => do
      let tree ← (Subtree.binary f first second).checkHeight
      return tree :: below

/-- One token. Operands lie on top of the stack, and operators take them from there. -/
def step (stack : List Subtree) (token : Token) : Except AssemblyError (List Subtree) :=
  match token with
  | .number text =>
    match Numeral.readFinite? text with
    | some x => .ok (.const x :: stack)
    | none => .error (.invalidNumber text)
  | .identifier name => .ok (.var name :: stack)
  | .operator op => reduce op stack
  | .openParen | .closeParen => .error (.unexpectedToken token.text)

/-- The only tree on the stack. -/
def result (stack : List Subtree) : Except AssemblyError Expr :=
  match stack with
  | [tree] => .ok tree.expr
  | _ => .error (.treesLeft stack.length)

end Assembly

/-- **The tree that tokens in postfix order make up.** -/
def Expr.ofPostfix (tokens : List Token) : Except AssemblyError Expr := do
  let stack ← tokens.foldlM Assembly.step []
  Assembly.result stack

end Formula
