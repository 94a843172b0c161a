import Formula.Expr.Read
import Formula.Proofs.Assembling
import Formula.Proofs.Precedence

/-!
# Values without a tree

Tokens in postfix order can be evaluated with no tree, from left to right on a stack of values.

* `ValueStack.step`, `ValueStack.value`: one token, and all of them.
* `ValueStack.FailsFirst`: the first token that fails, and its error.
* **`ValueStack.run_postorder`**: the tokens of a tree put its value on top of the stack.
* **`eval_eq_value`**: a tree has the value of the tokens that it was assembled from, or fails like
  them.
-/

namespace Formula

/-- Why the evaluation of tokens stops. -/
inductive Halt where
  /-- A token has no value. -/
  | eval (error : EvalError)
  /-- A token finds too few values, or is neither operand nor operator; or not one value is left. -/
  | stuck
  deriving DecidableEq

namespace ValueStack

/-- One token. An operand goes on top of the stack, and an operator takes its operands from there,
with the second one on top of the first. -/
def step (values : Values) (stack : List Float) : Token → Except Halt (List Float)
  | .number text =>
    match Numeral.read? text with
    | some x => .ok (x :: stack)
    | none => .error .stuck
  | .identifier name =>
    match values name with
    | some x => .ok (x :: stack)
    | none => .error (.eval (.unboundName name))
  | .operator (.unary op) =>
    match stack with
    | x :: below => (op.apply x).mapError .eval >>= fun result => .ok (result :: below)
    | [] => .error .stuck
  | .operator (.binary op) =>
    match stack with
    | y :: x :: below => (op.apply x y).mapError .eval >>= fun result => .ok (result :: below)
    | [_] | [] => .error .stuck
  | .openParen | .closeParen => .error .stuck

def result : List Float → Except Halt Float
  | [x] => .ok x
  | _ => .error .stuck

/-- The value of tokens in postfix order. -/
def value (values : Values) (tokens : List Token) : Except Halt Float :=
  tokens.foldlM (step values) [] >>= result

/-- One of the tokens fails with the error, and none before it fails. -/
def FailsFirst (values : Values) (tokens : List Token) (error : EvalError) : Prop :=
  ∃ before token after stack, tokens = before ++ token :: after ∧
    before.foldlM (step values) [] = .ok stack ∧ step values stack token = .error (.eval error)

variable {values : Values}

theorem value_eq_error_iff {tokens : List Token} {error : EvalError} :
    value values tokens = .error (.eval error) ↔ FailsFirst values tokens error := by
  have hresult (stack : List Float) : result stack ≠ .error (.eval error) := by
    unfold result
    split <;> simp
  rw [value, bind_eq_error_iff, FailsFirst, ← foldlM_eq_error_iff]
  constructor
  · rintro (h | ⟨stack, -, h⟩)
    · exact h
    · exact absurd h (hresult stack)
  · exact .inl

/-- **The tokens of a tree in postorder put its value on top of the stack**, or fail as it does. -/
theorem run_postorder {e : Sketch} {t : Expr} (h : e.expr? = some t) (stack : List Float) :
    e.postorder.foldlM (step values) stack =
      (t.eval values).mapError .eval >>= fun x => .ok (x :: stack) := by
  induction e generalizing t stack with
  | number text =>
    obtain ⟨x, hx, rfl⟩ := Sketch.expr?_number_eq_some_iff.1 h
    have hread : Numeral.read? text = some x := (Numeral.readFinite?_eq_some_iff.1 hx).1
    rw [Sketch.postorder, List.foldlM_cons, step, hread]
    rfl
  | var name =>
    cases h
    rw [Sketch.postorder, List.foldlM_cons, step, Expr.eval]
    cases values name <;> rfl
  | unary op operand ih =>
    obtain ⟨a, ha, rfl⟩ := Sketch.expr?_unary_eq_some_iff.1 h
    rw [Sketch.postorder, List.foldlM_append, ih ha, Expr.eval]
    cases a.eval values with
    | error e => rfl
    | ok x =>
      change List.foldlM (step values) (x :: stack) [.operator (.unary op)] = _
      rw [List.foldlM_cons, step, ok_bind]
      cases op.apply x <;> rfl
  | binary op first second ih₁ ih₂ =>
    obtain ⟨a, b, ha, hb, rfl⟩ := Sketch.expr?_binary_eq_some_iff.1 h
    rw [Sketch.postorder, List.foldlM_append, List.foldlM_append, ih₁ ha, Expr.eval]
    cases a.eval values with
    | error e => rfl
    | ok x =>
      change (List.foldlM (step values) (x :: stack) second.postorder >>= _) = _
      rw [ih₂ hb, ok_bind]
      cases b.eval values with
      | error e => rfl
      | ok y =>
        change List.foldlM (step values) (y :: x :: stack) [.operator (.binary op)] = _
        rw [List.foldlM_cons, step, ok_bind]
        cases op.apply x y <;> rfl

theorem value_of_ofPostfix {tokens : List Token} {t : Expr} (h : Expr.ofPostfix tokens = .ok t) :
    value values tokens = (t.eval values).mapError .eval := by
  obtain ⟨e, rfl, hexpr, -⟩ := ofPostfix_eq_ok_iff.1 h
  rw [value, run_postorder hexpr]
  cases t.eval values <;> rfl

theorem eval_eq_error_iff {tokens : List Token} {t : Expr} (h : Expr.ofPostfix tokens = .ok t)
    {error : EvalError} : t.eval values = .error error ↔ FailsFirst values tokens error := by
  rw [← value_eq_error_iff, value_of_ofPostfix h]
  cases t.eval values <;> simp [Except.mapError]

end ValueStack

/-- **A tree has the value of the tokens that it was assembled from**, and fails with the error of
the first of them that fails. So does a text that is read, with its tokens in postfix order. -/
theorem eval_eq_value :
    (∀ tokens t, Expr.ofPostfix tokens = .ok t → ∀ values,
      ValueStack.value values tokens = (t.eval values).mapError .eval ∧
        ∀ error, t.eval values = .error error ↔ ValueStack.FailsFirst values tokens error) ∧
    ∀ text t, Expr.read text = .ok t → ∃ tokens ordered, Token.scan text = .ok tokens ∧
      Token.toPostfix tokens = .ok ordered ∧ ∀ values error,
        evaluate text values = .error (.eval error) ↔
          ValueStack.FailsFirst values ordered error := by
  refine ⟨fun tokens t h values => ?_, fun text t hread => ?_⟩
  · exact ⟨ValueStack.value_of_ofPostfix h, fun error => ValueStack.eval_eq_error_iff h⟩
  · obtain ⟨tokens, ordered, hscan, hordered, h⟩ := read_eq_ok_iff.1 hread
    refine ⟨tokens, ordered, hscan, hordered, fun values error => ?_⟩
    rw [evaluate_eq_eval hread, ← ValueStack.eval_eq_error_iff h]
    cases t.eval values <;> simp [Except.mapError]

/-- The root fails before the name behind it is looked up. -/
theorem eval_eq_value_negative_root :
    ValueStack.value .empty [.number "4", .operator (.unary .negate),
        .operator (.unary .squareRoot), .identifier "y", .operator (.binary .add)] =
        .error (.eval (.negativeRoot (-4))) ∧
      ∃ tokens ordered, Token.scan "sqrt(-4) + y" = .ok tokens ∧
        Token.toPostfix tokens = .ok ordered ∧
        ValueStack.FailsFirst .empty ordered (.negativeRoot (-4)) := by
  obtain ⟨hbuilt, hread⟩ := eval_eq_value
  refine ⟨?_, ?_⟩
  · have hbuild : Expr.ofPostfix [.number "4", .operator (.unary .negate),
        .operator (.unary .squareRoot), .identifier "y", .operator (.binary .add)] =
        .ok (.binary .add (.unary .squareRoot (.unary .negate (.const 4))) (.var "y")) := by
      decide +kernel
    rw [(hbuilt _ _ hbuild .empty).1]
    decide +kernel
  · have htext : Expr.read "sqrt(-4) + y" =
        .ok (.binary .add (.unary .squareRoot (.unary .negate (.const 4))) (.var "y")) := by
      decide +kernel
    obtain ⟨tokens, ordered, hscan, hordered, hfails⟩ := hread _ _ htext
    refine ⟨tokens, ordered, hscan, hordered, (hfails _ _).1 ?_⟩
    decide +kernel

end Formula
