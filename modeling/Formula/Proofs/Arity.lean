import Formula.Proofs.Assembling

/-!
# As many operands as an operator has

An operator always takes two subtrees from the stack, and a unary one puts the older back. This is
the same as taking just as many as it has operands.

* `ByArity.step`, `ByArity.build`: assembling by taking one tree for a unary operator and two for a
  binary one.
* `Assembly.checkHeight_bind`: the height at hand is the one that is limited.
* **`Assembly.step_map_expr`**, `Assembly.run_map_expr`: one token, and a run, on any stack.
* **`ofPostfix_eq_build`**: both make the same tree of the same tokens, or fail in the same way.
-/

namespace Formula

/-! ## Taking by arity -/

namespace ByArity

/-- A tree is laid on top of others, unless it has too many levels. -/
def lay (tree : Expr) (below : List Expr) : Except AssemblyError (List Expr) :=
  if maxHeight < tree.height then .error (.tooHigh maxHeight) else .ok (tree :: below)

/-- One token. A unary operator takes one tree from the stack, and a binary one takes two. -/
def step (stack : List Expr) : Token → Except AssemblyError (List Expr)
  | .number text =>
    match Numeral.readFinite? text with
    | some x => .ok (.const x :: stack)
    | none => .error (.invalidNumber text)
  | .identifier name => .ok (.var name :: stack)
  | .operator (.unary op) =>
    match stack with
    | operand :: below => lay (.unary op operand) below
    | [] => .error (.missingOperand op.symbol)
  | .operator (.binary op) =>
    match stack with
    | second :: first :: below => lay (.binary op first second) below
    | [_] => .error (.missingLeft op.symbol)
    | [] => .error (.missingRight op.symbol)
  | .openParen => .error (.unexpectedToken Token.openParen.text)
  | .closeParen => .error (.unexpectedToken Token.closeParen.text)

def result : List Expr → Except AssemblyError Expr
  | [tree] => .ok tree
  | stack => .error (.treesLeft stack.length)

/-- The tree that tokens in postfix order make up. -/
def build (tokens : List Token) : Except AssemblyError Expr :=
  tokens.foldlM step [] >>= result

end ByArity

/-! ## One stack for the other -/

namespace Assembly

variable {stack : List Subtree}

theorem checkHeight_bind (tree : Subtree) :
    (tree.checkHeight >>= fun tree => pure (tree :: stack)).map (List.map Subtree.expr) =
      ByArity.lay tree.expr (stack.map Subtree.expr) := by
  rw [Subtree.checkHeight, ByArity.lay, tree.height_eq]
  split <;> rfl

/-- **One token does the same on any stack**, when only the trees on it are looked at. -/
theorem step_map_expr (stack : List Subtree) (t : Token) :
    ByArity.step (stack.map Subtree.expr) t = (step stack t).map (List.map Subtree.expr) := by
  cases t with
  | number text =>
    rw [ByArity.step, step]
    cases Numeral.readFinite? text <;> rfl
  | identifier name => rfl
  | openParen | closeParen => rfl
  | operator op =>
    cases op with
    | unary op =>
      cases stack with
      | nil => rfl
      | cons operand below =>
        -- what was taken besides the operand has been put back
        rw [step_unary, checkHeight_bind]
        rfl
    | binary op =>
      cases stack with
      | nil => rfl
      | cons second below =>
        cases below with
        | nil => rfl
        | cons first below =>
          rw [step_binary, checkHeight_bind]
          rfl

theorem run_map_expr (ts : List Token) (stack : List Subtree) :
    ts.foldlM ByArity.step (stack.map Subtree.expr) =
      (ts.foldlM step stack).map (List.map Subtree.expr) := by
  have hrun := foldlM_map_of_step (g := id) step_map_expr ts stack
  rwa [List.map_id] at hrun

theorem result_map_expr (stack : List Subtree) :
    ByArity.result (stack.map Subtree.expr) = result stack := by
  cases stack with
  | nil => rfl
  | cons tree below =>
    cases below with
    | nil => rfl
    | cons other below => simp [ByArity.result, result]

end Assembly

/-- **Taking two subtrees and putting one back is the same as taking as many as there are
operands.** Both ways make the same tree of the same tokens, or fail with the same error. -/
theorem ofPostfix_eq_build (ts : List Token) : Expr.ofPostfix ts = ByArity.build ts := by
  have hrun : ts.foldlM ByArity.step [] = _ := Assembly.run_map_expr ts []
  rw [Expr.ofPostfix, ByArity.build, hrun]
  cases ts.foldlM Assembly.step [] with
  | error e => rfl
  | ok stack => exact (Assembly.result_map_expr stack).symm

end Formula
