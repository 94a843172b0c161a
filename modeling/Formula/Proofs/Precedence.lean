import Formula.Expr.Read
import Formula.Proofs.Assembling

/-!
# Precedence

* `Layer.strength`, `Blocks`, `Pending`: what may wait below the tokens of a layer, and what they
  leave waiting themselves.
* `Yard.run_derives`: the tokens of a layer, run through the yard; `toPostfix_of_derives`: they come
  out with every operator behind its operands.
* **`read_derives`**: a formula of the grammar is read as the tree of its derivation, or fails for a
  number that is not finite, or for its height.
-/

namespace Formula

/-! ## The strength of a layer -/

/-- How strongly the operators of the layer bind. -/
def Layer.strength : Layer → Nat
  | sum => 6
  | product => 7
  | power => 8
  | factor => 9

theorem strength_le_tighter (layer : Layer) : layer.strength ≤ layer.tighter.strength := by
  cases layer <;> decide

theorem strength_layer (op : BinaryOp) : op.layer.strength = (Operator.binary op).priority := by
  cases op <;> rfl

theorem strength_layer_lt (op : BinaryOp) :
    (Operator.binary op).priority < op.layer.tighter.strength := by
  cases op <;> decide

namespace Yard

/-! ## What waits -/

/-- Nothing that waits leaves for an operator of the layer, or of a tighter one. -/
def Blocks (layer : Layer) (waiting : List Token) : Prop :=
  ∀ op : BinaryOp, layer.strength ≤ (Operator.binary op).priority →
    ∀ t ∈ waiting.head?, leavesFor id (.binary op) t = false

/-- The token is an operator that binds as strongly as the layer at least. -/
def Pending (layer : Layer) (t : Token) : Prop :=
  ∃ op, t = .operator op ∧ layer.strength ≤ op.priority

section

variable {layer : Layer} {waiting pending : List Token}

theorem Blocks.tighter (h : Blocks layer waiting) : Blocks layer.tighter waiting := fun op hop =>
  h op (Nat.le_trans (strength_le_tighter layer) hop)

theorem Pending.of_tighter {t : Token} (h : Pending layer.tighter t) : Pending layer t := by
  obtain ⟨op, rfl, hop⟩ := h
  exact ⟨op, rfl, Nat.le_trans (strength_le_tighter layer) hop⟩

theorem blocks_nil (layer : Layer) : Blocks layer [] := by
  intro op _ t ht
  cases ht

theorem blocks_openParen (layer : Layer) : Blocks layer (.openParen :: waiting) := by
  intro op _ t ht
  cases ht
  rfl

theorem blocks_factor : Blocks .factor waiting := by
  intro op hop
  cases op <;> exact absurd hop (by decide)

theorem blocks_operator (op : BinaryOp) :
    Blocks op.layer.tighter (.operator (.binary op) :: waiting) := by
  intro op' hop t ht
  cases ht
  have := strength_layer_lt op
  simp [leavesFor, Operator.goesBefore, Operator.isUnary]
  omega

/-- All that the parts of a layer left waiting leaves for an operator of the layer. -/
theorem takeWhile_pending (op : BinaryOp) (hp : ∀ t ∈ pending, Pending op.layer t)
    (hw : Blocks op.layer waiting) :
    (pending ++ waiting).takeWhile (leavesFor id (.binary op)) = pending ∧
      (pending ++ waiting).dropWhile (leavesFor id (.binary op)) = waiting := by
  have hleave : ∀ t ∈ pending, leavesFor id (.binary op) t = true := by
    intro t ht
    obtain ⟨op', rfl, hop'⟩ := hp t ht
    rw [strength_layer] at hop'
    simpa [leavesFor, Operator.goesBefore, Operator.isUnary] using hop'
  rw [List.takeWhile_append_of_pos hleave, List.dropWhile_append_of_pos hleave]
  cases waiting with
  | nil => simp
  | cons t waiting =>
    have := hw op (Nat.le_of_eq (strength_layer op)) t rfl
    simp [this]

/-! ## One token -/

theorem step_binary (op : BinaryOp) (output : List Token) (hp : ∀ t ∈ pending, Pending op.layer t)
    (hw : Blocks op.layer waiting) :
    step id ⟨output, pending ++ waiting⟩ (.operator (.binary op)) =
      .ok ⟨pending.reverse ++ output, .operator (.binary op) :: waiting⟩ := by
  obtain ⟨htake, hdrop⟩ := takeWhile_pending op hp hw
  simp only [step, id, putOperator, htake, hdrop]

theorem step_unary (op : UnaryOp) (output : List Token) :
    step id ⟨output, waiting⟩ (.operator (.unary op)) =
      .ok ⟨output, .operator (.unary op) :: waiting⟩ := by
  have hstay : ∀ t : Token, leavesFor id (.unary op) t = false := by
    intro t
    cases t <;> rfl
  cases waiting <;> simp [step, putOperator, hstay]

theorem step_closeParen (output : List Token) (hp : ∀ t ∈ pending, Pending layer t) :
    step id ⟨output, pending ++ .openParen :: waiting⟩ .closeParen =
      .ok ⟨pending.reverse ++ output, waiting⟩ := by
  have hne : ∀ t ∈ pending, (t != Token.openParen) = true := by
    intro t ht
    obtain ⟨op, rfl, -⟩ := hp t ht
    rfl
  simp [step, close, List.takeWhile_append_of_pos hne, List.dropWhile_append_of_pos hne]

end

/-! ## The tokens of a layer -/

/-- **The tokens of a layer, run through the yard.** What has left and what still waits of them make
up the tree in postorder, and all that waits binds as strongly as the layer. -/
theorem run_derives {layer : Layer} {ts : List Token} {e : Sketch} (h : Derives layer ts e)
    (output waiting : List Token) (hw : Blocks layer waiting) :
    ∃ left pending, ts.foldlM (step id) ⟨output, waiting⟩ =
      .ok ⟨left ++ output, pending ++ waiting⟩ ∧
      left.reverse ++ pending = e.postorder ∧ ∀ t ∈ pending, Pending layer t := by
  induction h generalizing output waiting with
  | number text => exact ⟨[.number text], [], rfl, rfl, by simp⟩
  | identifier name => exact ⟨[.identifier name], [], rfl, rfl, by simp⟩
  | @parens ts e h ih =>
    obtain ⟨left, pending, hrun, hpost, hp⟩ :=
      ih output (.openParen :: waiting) (blocks_openParen _)
    refine ⟨pending.reverse ++ left, [], ?_, by simpa using hpost, by simp⟩
    have hopen : step id ⟨output, waiting⟩ .openParen = .ok ⟨output, .openParen :: waiting⟩ := rfl
    rw [foldlM_cons_of_ok hopen, foldlM_append_of_ok hrun, foldlM_cons_of_ok (step_closeParen _ hp),
      List.append_assoc]
    rfl
  | @unary op ts e h ih =>
    obtain ⟨left, pending, hrun, hpost, hp⟩ :=
      ih output (.operator (.unary op) :: waiting) blocks_factor
    refine ⟨left, pending ++ [.operator (.unary op)], ?_, ?_, ?_⟩
    · rw [foldlM_cons_of_ok (step_unary op output), hrun, List.append_assoc]
      rfl
    · rw [Sketch.postorder, ← hpost, List.append_assoc]
    · intro t ht
      rcases List.mem_append.1 ht with ht | ht
      · exact hp t ht
      · rw [List.mem_singleton.1 ht]
        exact ⟨.unary op, rfl, Nat.le_refl _⟩
  | single h ih =>
    obtain ⟨left, pending, hrun, hpost, hp⟩ := ih output waiting hw.tighter
    exact ⟨left, pending, hrun, hpost, fun t ht => (hp t ht).of_tighter⟩
  | @chain op layer hop ts us e f h h' ih ih' =>
    subst hop
    obtain ⟨left, pending, hrun, hpost, hp⟩ := ih output waiting hw
    obtain ⟨left', pending', hrun', hpost', hp'⟩ :=
      ih' (pending.reverse ++ (left ++ output)) (.operator (.binary op) :: waiting)
        (blocks_operator op)
    refine ⟨left' ++ pending.reverse ++ left, pending' ++ [.operator (.binary op)], ?_, ?_, ?_⟩
    · rw [foldlM_append_of_ok hrun, foldlM_cons_of_ok (step_binary op _ hp hw), hrun']
      simp only [List.append_assoc, List.singleton_append]
    · rw [Sketch.postorder, ← hpost, ← hpost']
      simp
    · intro t ht
      rcases List.mem_append.1 ht with ht | ht
      · exact (hp' t ht).of_tighter
      · rw [List.mem_singleton.1 ht]
        exact ⟨.binary op, rfl, Nat.le_of_eq (strength_layer op)⟩

end Yard

theorem toPostfix_of_derives {ts : List Token} {e : Sketch} (h : Derives .sum ts e) :
    Token.toPostfix ts = .ok e.postorder := by
  obtain ⟨left, pending, hrun, hpost, hp⟩ := Yard.run_derives h [] [] (Yard.blocks_nil _)
  have hclosed : ¬ pending.any (id · == Token.openParen) = true := by
    rw [List.any_eq_true]
    rintro ⟨t, ht, heq⟩
    obtain ⟨op, rfl, -⟩ := hp t ht
    exact Bool.noConfusion heq
  rw [List.append_nil, List.append_nil] at hrun
  rw [Token.toPostfix, Yard.order, hrun, ok_bind, Yard.finish, if_neg hclosed, hpost]

/-! ## Formulas of the grammar -/

theorem read_eq_ok_iff {text : String} {t : Expr} :
    Expr.read text = .ok t ↔ ∃ ts out, Token.scan text = .ok ts ∧ Token.toPostfix ts = .ok out ∧
      Expr.ofPostfix out = .ok t := by
  simp only [Expr.read, bind_eq_ok_iff, mapError_eq_ok_iff]
  constructor
  · rintro ⟨ts, hscan, out, hout, ht⟩
    exact ⟨ts, out, hscan, hout, ht⟩
  · rintro ⟨ts, out, hscan, hout, ht⟩
    exact ⟨ts, hscan, out, hout, ht⟩

theorem evaluate_eq_eval {text : String} {t : Expr} (h : Expr.read text = .ok t) (values : Values) :
    evaluate text values = (t.eval values).mapError .eval := by
  rw [evaluate, h]
  rfl

theorem read_eq_of_toPostfix {text : String} {ts out : List Token}
    (hscan : Token.scan text = .ok ts)
    (hout : Token.toPostfix ts = .ok out) :
    Expr.read text = (Expr.ofPostfix out).mapError .assembly := by
  rw [Expr.read, hscan]
  change (Token.toPostfix ts).mapError _ >>= _ = _
  rw [hout]
  rfl

theorem read_eq_of_derives {text : String} {ts : List Token} {e : Sketch}
    (hscan : Token.scan text = .ok ts) (h : Derives .sum ts e) :
    Expr.read text = (Expr.ofPostfix e.postorder).mapError .assembly :=
  read_eq_of_toPostfix hscan (toPostfix_of_derives h)

/-- **A formula of the grammar is read as the tree of its derivation.** It fails only for a number
that is not finite or for its height, and then it does fail for one of the two. -/
theorem read_derives {text : String} {ts : List Token} {e : Sketch}
    (hscan : Token.scan text = .ok ts) (h : Derives .sum ts e) :
    (∀ t, e.expr? = some t → t.height ≤ maxHeight → Expr.read text = .ok t) ∧
      ((∃ literal ∈ e.texts, Numeral.readFinite? literal = none) ∨ maxHeight < e.height →
        (∃ literal ∈ e.texts, Numeral.readFinite? literal = none ∧
          Expr.read text = .error (.assembly (.invalidNumber literal))) ∨
        maxHeight < e.height ∧ Expr.read text = .error (.assembly (.tooHigh maxHeight))) := by
  rw [read_eq_of_derives hscan h]
  refine ⟨fun t ht hle => ?_, fun hbad => ?_⟩
  · rw [ofPostfix_postorder ht hle]
    rfl
  · rcases ofPostfix_postorder_error hbad with ⟨literal, hmem, hnone, herr⟩ | ⟨hlt, herr⟩
    · exact .inl ⟨literal, hmem, hnone, by rw [herr]; rfl⟩
    · exact .inr ⟨hlt, by rw [herr]; rfl⟩

theorem read_derives_negative_base :
    Expr.read "-2^(3)" = .ok (.binary .power (.unary .negate (.const 2)) (.const 3)) := by
  have hscan : Token.scan "-2^(3)" = .ok [.operator (.unary .negate), .number "2",
      .operator (.binary .power), .openParen, .number "3", .closeParen] := by decide +kernel
  have hbase : Derives .power [.operator (.unary .negate), .number "2"]
      (.unary .negate (.number "2")) := .single (.unary .negate (.number "2"))
  have hexponent : Derives .factor [.openParen, .number "3", .closeParen] (.number "3") :=
    .parens ((Derives.number "3").of_factor .sum)
  have hpower : Derives .power _ _ := .chain .power rfl hbase hexponent
  exact (read_derives hscan (.single (.single hpower))).1 _ rfl (by decide)

end Formula
