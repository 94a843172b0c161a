import Formula.Proofs.Context
import Formula.Proofs.Parentheses
import Formula.Proofs.Precedence

/-!
# Texts composed of texts

Texts that are read may be put in parentheses and joined by operators. What results is read as the
joined tree, however the parts were written.

* `UnaryOp.compose`, `BinaryOp.compose`: the text of an operation, with the texts of its operands in
  parentheses.
* `scan_compose_unary`, `scan_compose_binary`: its tokens.
* `ofPostfix_unary`, `ofPostfix_binary`: the tree of an operator behind the tokens of its operands.
* **`read_compose`**: the tree and the value of a composed text.
-/

namespace Formula

/-- The spelling that is read as the operation in front of its operand. -/
def UnaryOp.spelling : UnaryOp → String
  | negate => "-"
  | op => op.symbol

/-- The text of the operation, with the text of its operand in parentheses. -/
def UnaryOp.compose (op : UnaryOp) (operand : String) : String :=
  op.spelling ++ "(" ++ operand ++ ")"

/-- The text of the operation, with the texts of its operands in parentheses. -/
def BinaryOp.compose (op : BinaryOp) (first second : String) : String :=
  "(" ++ first ++ ") " ++ op.symbol ++ " (" ++ second ++ ")"

/-! ## Tokens -/

theorem spelling_of_ne {op : UnaryOp} (h : op ≠ .negate) : op.spelling = op.symbol := by
  cases op with
  | negate => exact absurd rfl h
  | squareRoot | sine | cosine | tangent => rfl

theorem Scanner.run_spelling (op : UnaryOp) {rest : List Char} {ts : List Token} {n : Nat}
    (h : Expecting ts) : run (op.spelling.toList ++ '(' :: rest) (ready ts n) =
      run ('(' :: rest) (ready (.operator (.unary op) :: ts) (n + op.spelling.toList.length)) := by
  by_cases hop : op = .negate
  · rw [hop]
    exact run_negate h
  · rw [spelling_of_ne hop]
    exact run_function hop stops_openParen.1

section

variable {a b : String} {ts us : List Token}

theorem scan_enclosed (ha : Token.scan a = .ok ts) :
    Token.scan ("(" ++ a ++ ")") = .ok (enclosed ts) := by
  have hrun : Scanner.run ('(' :: (a.toList ++ ')' :: [' '])) (Scanner.ready [] 0) = _ :=
    Scanner.run_enclosed ha
  have htext : ("(" ++ a ++ ")").toList ++ [' '] = '(' :: (a.toList ++ ')' :: [' ']) := by simp
  rw [← htext] at hrun
  rw [scan_of_run hrun]
  simp [enclosed]

theorem scan_compose_unary (op : UnaryOp) (ha : Token.scan a = .ok ts) :
    Token.scan (op.compose a) = .ok (.operator (.unary op) :: enclosed ts) := by
  have hop : Scanner.run (op.spelling.toList ++ '(' :: (a.toList ++ ')' :: [' ']))
      (Scanner.ready [] 0) = _ :=
    Scanner.run_spelling op Scanner.expecting_nil
  have htext : (op.compose a).toList ++ [' '] =
      op.spelling.toList ++ '(' :: (a.toList ++ ')' :: [' ']) := by simp [UnaryOp.compose]
  rw [Scanner.run_enclosed ha, ← htext] at hop
  rw [scan_of_run hop]
  simp [enclosed]

theorem scan_compose_binary (op : BinaryOp) (ha : Token.scan a = .ok ts)
    (hb : Token.scan b = .ok us) :
    Token.scan (op.compose a b) = .ok (enclosed ts ++ .operator (.binary op) :: enclosed us) := by
  have hfirst :
      Scanner.run ('(' :: (a.toList ++ ')' :: (' ' :: (op.symbol.toList ++
        ' ' :: '(' :: (b.toList ++ ')' :: [' ']))))) (Scanner.ready [] 0) = _ :=
    Scanner.run_enclosed ha
  have htext :
      (op.compose a b).toList ++ [' '] = '(' :: (a.toList ++ ')' :: (' ' :: (op.symbol.toList ++
        ' ' :: '(' :: (b.toList ++ ')' :: [' '])))) := by simp [BinaryOp.compose]
  have hblank : isBlank ' ' = true := by decide
  rw [Scanner.run_blank hblank, Scanner.run_binary op rfl Scanner.stops_blank.1,
    Scanner.run_blank hblank, Scanner.run_enclosed hb, ← htext] at hfirst
  rw [scan_of_run hfirst]
  simp [enclosed]

end

/-! ## Trees -/

section

variable {ts us : List Token} {t u : Expr}

theorem ofPostfix_unary (op : UnaryOp) (ht : Expr.ofPostfix ts = .ok t) :
    Expr.ofPostfix (ts ++ [.operator (.unary op)]) =
      if t.height + 1 ≤ maxHeight then .ok (.unary op t) else .error (.tooHigh maxHeight) := by
  obtain ⟨e, rfl, he, -⟩ := ofPostfix_eq_ok_iff.1 ht
  exact ofPostfix_postorder_of_expr? (Sketch.expr?_unary_eq_some_iff.2 ⟨t, he, rfl⟩)

theorem ofPostfix_binary (op : BinaryOp) (ht : Expr.ofPostfix ts = .ok t)
    (hu : Expr.ofPostfix us = .ok u) :
    Expr.ofPostfix (ts ++ us ++ [.operator (.binary op)]) =
      if max t.height u.height + 1 ≤ maxHeight then .ok (.binary op t u)
      else .error (.tooHigh maxHeight) := by
  obtain ⟨e, rfl, he, -⟩ := ofPostfix_eq_ok_iff.1 ht
  obtain ⟨f, rfl, hf, -⟩ := ofPostfix_eq_ok_iff.1 hu
  exact ofPostfix_postorder_of_expr? (Sketch.expr?_binary_eq_some_iff.2 ⟨t, u, he, hf, rfl⟩)

end

/-! ## Texts -/

section

variable {a b : String} {t u : Expr}

theorem read_enclosed (ha : Expr.read a = .ok t) : Expr.read ("(" ++ a ++ ")") = .ok t := by
  obtain ⟨ts, out, hscan, hout, htree⟩ := read_eq_ok_iff.1 ha
  exact read_eq_ok_iff.2 ⟨_, out, scan_enclosed hscan, toPostfix_enclosed hout, htree⟩

theorem read_compose_unary (op : UnaryOp) (ha : Expr.read a = .ok t) :
    Expr.read (op.compose a) =
      if t.height + 1 ≤ maxHeight then .ok (.unary op t)
      else .error (.assembly (.tooHigh maxHeight)) := by
  obtain ⟨ts, out, hscan, hout, htree⟩ := read_eq_ok_iff.1 ha
  rw [read_eq_of_toPostfix (scan_compose_unary op hscan) (toPostfix_unary op hout),
    ofPostfix_unary op htree]
  split <;> rfl

theorem read_compose_binary (op : BinaryOp) (ha : Expr.read a = .ok t) (hb : Expr.read b = .ok u) :
    Expr.read (op.compose a b) = if max t.height u.height + 1 ≤ maxHeight then .ok (.binary op t u)
      else .error (.assembly (.tooHigh maxHeight)) := by
  obtain ⟨ts, out, hscan, hout, htree⟩ := read_eq_ok_iff.1 ha
  obtain ⟨us, out', hscan', hout', htree'⟩ := read_eq_ok_iff.1 hb
  rw [read_eq_of_toPostfix (scan_compose_binary op hscan hscan') (toPostfix_binary op hout hout'),
    ofPostfix_binary op htree htree']
  split <;> rfl

variable {text : String}

theorem evaluate_unary {op : UnaryOp} (h : Expr.read text = .ok (.unary op t))
    (ha : Expr.read a = .ok t) (values : Values) :
    evaluate text values = (do
      let x ← evaluate a values
      (op.apply x).mapError .eval) := by
  rw [evaluate_eq_eval h, evaluate_eq_eval ha, Expr.eval]
  cases t.eval values <;> rfl

theorem evaluate_binary {op : BinaryOp} (h : Expr.read text = .ok (.binary op t u))
    (ha : Expr.read a = .ok t) (hb : Expr.read b = .ok u) (values : Values) :
    evaluate text values = (do
      let x ← evaluate a values
      let y ← evaluate b values
      (op.apply x y).mapError .eval) := by
  rw [evaluate_eq_eval h, evaluate_eq_eval ha, evaluate_eq_eval hb, Expr.eval]
  cases t.eval values with
  | error e => rfl
  | ok x => cases u.eval values <;> rfl

/-- **Texts are read as parts of a composed text as they are by themselves.** That one fails only
for its height, and has the value of the operation on the values of its parts. -/
theorem read_compose (ha : Expr.read a = .ok t) (hb : Expr.read b = .ok u) :
    (Expr.read ("(" ++ a ++ ")") = .ok t ∧
        ∀ values, evaluate ("(" ++ a ++ ")") values = evaluate a values) ∧
      (∀ op : BinaryOp,
        Expr.read (op.compose a b) =
            (if max t.height u.height + 1 ≤ maxHeight then .ok (.binary op t u)
              else .error (.assembly (.tooHigh maxHeight))) ∧
          (max t.height u.height + 1 ≤ maxHeight → ∀ values, evaluate (op.compose a b) values = do
            let x ← evaluate a values
            let y ← evaluate b values
            (op.apply x y).mapError .eval)) ∧
      ∀ op : UnaryOp,
        Expr.read (op.compose a) = (if t.height + 1 ≤ maxHeight then .ok (.unary op t)
            else .error (.assembly (.tooHigh maxHeight))) ∧
          (t.height + 1 ≤ maxHeight → ∀ values, evaluate (op.compose a) values = do
            let x ← evaluate a values
            (op.apply x).mapError .eval) := by
  refine ⟨⟨read_enclosed ha, fun values => ?_⟩, fun op => ?_, fun op => ?_⟩
  · rw [evaluate_eq_eval (read_enclosed ha), evaluate_eq_eval ha]
  · have hread := read_compose_binary op ha hb
    refine ⟨hread, fun hle values => ?_⟩
    rw [if_pos hle] at hread
    exact evaluate_binary hread ha hb values
  · have hread := read_compose_unary op ha
    refine ⟨hread, fun hle values => ?_⟩
    rw [if_pos hle] at hread
    exact evaluate_unary hread ha values

end

theorem read_compose_subtract :
    Expr.read "(-x) - (2 y +)" = .ok (.binary .subtract (.unary .negate (.var "x"))
        (.binary .add (.const 2) (.var "y"))) ∧
      evaluate "(-x) - (2 y +)" (.ofList [("x", 1)]) = .error (.eval (.unboundName "y")) ∧
      Expr.read "-(-x)" = .ok (.unary .negate (.unary .negate (.var "x"))) := by
  have ha : Expr.read "-x" = .ok (.unary .negate (.var "x")) := by decide +kernel
  have hb : Expr.read "2 y +" = .ok (.binary .add (.const 2) (.var "y")) := by decide +kernel
  obtain ⟨-, hbinary, hunary⟩ := read_compose ha hb
  have htext : BinaryOp.subtract.compose "-x" "2 y +" = "(-x) - (2 y +)" := rfl
  obtain ⟨hread, hvalue⟩ := hbinary .subtract
  rw [htext] at hread hvalue
  refine ⟨hread, ?_, (hunary .negate).1⟩
  rw [hvalue (by decide)]
  decide +kernel

end Formula
