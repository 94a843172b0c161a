import Formula.Proofs.Normal
import Formula.Proofs.Precedence
import Formula.Proofs.Reordering
import Formula.Proofs.Spelling

/-!
# The text of a tree, read again

* `Expr.tokens`, `Expr.sketch`: the tokens of the text of a tree, and the tree that they stand for.
* **`Scanner.run_render`**: the text of a tree is split into just its tokens.
* `read_render`: a tree with no sign at its constants is read back from its text.
* **`read_render_norm`**: any tree is read back in normal form.
* **`read_render_read`**: a tree that has been read is read back from its text.
-/

namespace Formula

open Numeral (isSigned IsLiteral)

namespace Expr

/-! ## The tokens of a tree -/

/-- The tree with its constants written out. -/
def sketch : Expr → Sketch
  | const x => .number (Numeral.write x)
  | var name => .var name
  | unary op operand => .unary op operand.sketch
  | binary op first second => .binary op first.sketch second.sketch

/-- The tokens of the text of the tree. -/
def tokens : Expr → List Token
  | const x => [.number (Numeral.write x)]
  | var name => [.identifier name]
  | unary op operand => .operator (.unary op) :: enclose op operand.tokens
  | binary op first second =>
    .openParen :: (first.tokens ++ .operator (.binary op) :: (second.tokens ++ [.closeParen]))
where
  /-- Only the operand of a negation needs no parentheses. -/
  enclose (op : UnaryOp) (ts : List Token) : List Token :=
    if op = .negate then ts else .openParen :: (ts ++ [.closeParen])

theorem derives_tokens (t : Expr) : Derives .factor t.tokens t.sketch := by
  induction t with
  | const x => exact .number _
  | var name => exact .identifier name
  | unary op operand ih =>
    refine .unary op ?_
    rw [tokens.enclose]
    split
    · exact ih
    · exact .parens (ih.of_factor .sum)
  | binary op first second ih₁ ih₂ =>
    have hchain : Derives op.layer _ _ := .chain op rfl (ih₁.of_factor _) (ih₂.of_factor _)
    have := Derives.parens hchain.formula
    rwa [List.append_assoc, List.cons_append] at this

theorem expr?_sketch {t : Expr} {onName : String → Prop}
    (h : t.All IsMagnitude onName) : t.sketch.expr? = some t := by
  induction t with
  | const x =>
    rw [sketch, Sketch.expr?, (Numeral.readFinite?_writeChars h.1 h.2).2]
    rfl
  | var name => rfl
  | unary op operand ih =>
    rw [sketch, Sketch.expr?, ih h]
    rfl
  | binary op first second ih₁ ih₂ =>
    rw [sketch, Sketch.expr?, ih₁ h.1, ih₂ h.2]
    rfl

end Expr

namespace Scanner

/-! ## Splitting the text -/

theorem toList_between (op : BinaryOp) (first second : String) :
    (op.between first second).toList = '(' :: (first.toList ++ ' ' ::
      (op.symbol.toList ++ ' ' :: (second.toList ++ [')']))) := by
  simp [BinaryOp.between]

theorem toList_negate (operand : String) :
    (UnaryOp.negate.around operand).toList = '-' :: operand.toList := by
  simp [UnaryOp.around]

theorem toList_around {op : UnaryOp} (h : op ≠ .negate) (operand : String) :
    (op.around operand).toList = op.symbol.toList ++ '(' :: (operand.toList ++ [')']) := by
  cases op with
  | negate => exact absurd rfl h
  | squareRoot | sine | cosine | tangent => simp [UnaryOp.around]

section

variable (ts : List Token)

theorem reverse_tokens_unary {op : UnaryOp} (h : op ≠ .negate) (operand : Expr) :
    (Expr.unary op operand).tokens.reverse ++ ts = .closeParen ::
      (operand.tokens.reverse ++ .openParen :: .operator (.unary op) :: ts) := by
  simp [Expr.tokens, Expr.tokens.enclose, h]

theorem reverse_tokens_binary (op : BinaryOp) (first second : Expr) :
    (Expr.binary op first second).tokens.reverse ++ ts = .closeParen ::
      (second.tokens.reverse ++ .operator (.binary op) ::
        (first.tokens.reverse ++ .openParen :: ts)) := by
  simp [Expr.tokens]

theorem exists_reverse_tokens (t : Expr) :
    ∃ last before, t.tokens.reverse ++ ts = last :: before ∧ last.endsOperand = true := by
  obtain ⟨init, last, htokens, hlast⟩ := t.derives_tokens.exists_last
  exact ⟨last, init.reverse ++ ts, by simp [htokens], hlast⟩

end

/-- **The text of a tree is split into just its tokens**, where an operand is expected. -/
theorem run_render {t : Expr} {next : Char} {rest : List Char} {ts : List Token} {n : Nat}
    (ht : t.All IsMagnitude IsName) (hts : Expecting ts) (hnext : Stops next) :
    run (t.render.toList ++ next :: rest) (ready ts n) =
      run (next :: rest) (ready (t.tokens.reverse ++ ts) (n + t.render.toList.length)) := by
  induction t generalizing ts n next rest with
  | const x =>
    have hlit := (Numeral.readFinite?_writeChars ht.1 ht.2).1
    rw [Expr.render, Numeral.write, String.toList_ofList, run_literal hlit hnext]
    rfl
  | var name => exact run_name ht hnext.1
  | unary op operand ih =>
    by_cases hop : op = .negate
    · subst hop
      rw [Expr.render, toList_negate, List.cons_append, run_negate hts,
        ih ht (expecting_operator _ _) hnext]
      simp [Expr.tokens, Expr.tokens.enclose, Nat.add_assoc, Nat.add_comm]
    · rw [Expr.render, toList_around hop, reverse_tokens_unary ts hop]
      simp only [List.append_assoc, List.cons_append, List.nil_append]
      rw [run_unary hop, ih ht (expecting_openParen _) stops_closeParen, run_closeParen]
      congr 2
      simp only [List.length_append, List.length_cons, List.length_nil]
      omega
  | binary op first second ih₁ ih₂ =>
    obtain ⟨last, before, hbefore, hlast⟩ := exists_reverse_tokens (.openParen :: ts) first
    have hblank : isBlank ' ' = true := by decide
    rw [Expr.render, toList_between, reverse_tokens_binary]
    simp only [List.cons_append, List.append_assoc, List.nil_append]
    rw [run_openParen, ih₁ ht.1 (expecting_openParen ts) stops_blank, run_blank hblank, hbefore,
      run_binary op hlast stops_blank.1, run_blank hblank,
      ih₂ ht.2 (expecting_operator _ _) stops_closeParen, run_closeParen]
    congr 2
    simp only [List.length_append, List.length_cons, List.length_nil]
    omega

end Scanner

/-! ## Reading the text -/

section

variable {t : Expr}

theorem scan_render (ht : t.All IsMagnitude IsName) : Token.scan t.render = .ok t.tokens := by
  have hrun : Scanner.run (t.render.toList ++ [' ']) {} = _ :=
    Scanner.run_render ht Scanner.expecting_nil Scanner.stops_blank
  rw [scan_of_run hrun]
  simp

theorem read_render (ht : t.All IsMagnitude IsName) (hle : t.height ≤ maxHeight) :
    Expr.read t.render = .ok t := by
  rw [read_eq_of_derives (scan_render ht) t.derives_tokens.formula,
    ofPostfix_postorder (Expr.expr?_sketch ht) hle]
  rfl

/-- **A tree is read back from its text in normal form**, which has the same values. It is the same
tree just when no constant has a sign. -/
theorem read_render_norm (ht : t.All (fun x => x.isFinite = true) IsName) :
    (t.norm.height ≤ maxHeight → Expr.read t.render = .ok t.norm) ∧
      (∀ values, t.norm.eval values = t.eval values) ∧
      (t.norm = t ↔ t.All (fun x => isSigned x = false) fun _ => True) := by
  refine ⟨fun hle => ?_, Expr.eval_norm ht, Expr.norm_eq_self_iff⟩
  rw [← Expr.render_norm ht]
  exact read_render (Expr.all_norm ht) hle

end

theorem read_render_norm_subtract :
    Expr.read "(x - -2)" = .ok (.binary .subtract (.var "x") (.unary .negate (.const 2))) := by
  have hname : IsName "x" := ⟨⟨'x', [], rfl, by decide, by simp⟩, by decide⟩
  have hfinite : (-2 : Float).isFinite = true := rfl
  have hall : (Expr.binary .subtract (.var "x") (.const (-2))).All
      (fun x => x.isFinite = true) IsName :=
    ⟨hname, hfinite⟩
  have hnorm : (Expr.binary .subtract (.var "x") (.const (-2))).norm =
      .binary .subtract (.var "x") (.unary .negate (.const 2)) := rfl
  have hrender : (Expr.binary .subtract (.var "x") (.const (-2))).render = "(x - -2)" := by
    decide +kernel
  rw [← hrender, ← hnorm]
  exact (read_render_norm hall).1 (by rw [hnorm]; decide)

/-! ## Trees that have been read -/

theorem all_of_expr? {e : Sketch} {t : Expr} (h : e.expr? = some t)
    (hspelled : ∀ token ∈ e.postorder, token.Spelled) : t.All IsMagnitude IsName := by
  induction e generalizing t with
  | number text =>
    obtain ⟨x, hx, rfl⟩ := Sketch.expr?_number_eq_some_iff.1 h
    have hlit : IsLiteral text.toList := hspelled (.number text) (List.mem_singleton_self _)
    have hfinite := (Numeral.readFinite?_eq_some_iff.1 hx).2
    exact ⟨hfinite, hlit.isSigned_eq_false (by rwa [String.ofList_toList])⟩
  | var name =>
    cases h
    exact hspelled (.identifier name) (List.mem_singleton_self _)
  | unary op operand ih =>
    obtain ⟨a, ha, rfl⟩ := Sketch.expr?_unary_eq_some_iff.1 h
    rw [Expr.All]
    exact ih ha fun token hmem => hspelled token (List.mem_append_left _ hmem)
  | binary op first second ih₁ ih₂ =>
    obtain ⟨a, b, ha, hb, rfl⟩ := Sketch.expr?_binary_eq_some_iff.1 h
    refine ⟨ih₁ ha fun token hmem => hspelled token ?_, ih₂ hb fun token hmem => hspelled token ?_⟩
    · exact List.mem_append_left _ (List.mem_append_left _ hmem)
    · exact List.mem_append_left _ (List.mem_append_right _ hmem)

section

variable {text : String} {t : Expr}

/-- The constants of a tree that has been read are finite and have no sign, its names are no
keywords, and its height is bounded. -/
theorem all_of_read (h : Expr.read text = .ok t) :
    t.All IsMagnitude IsName ∧ t.height ≤ maxHeight := by
  obtain ⟨ts, out, hscan, hout, ht⟩ := read_eq_ok_iff.1 h
  obtain ⟨e, rfl, hexpr, hle⟩ := ofPostfix_eq_ok_iff.1 ht
  refine ⟨all_of_expr? hexpr fun token hmem => ?_, hle⟩
  exact spelled_of_scan hscan token (mem_of_toPostfix hout hmem)

/-- **A tree that has been read is read back from its text.** -/
theorem read_render_read (h : Expr.read text = .ok t) :
    t.All IsMagnitude IsName ∧ t.height ≤ maxHeight ∧ Expr.read t.render = .ok t := by
  obtain ⟨hall, hle⟩ := all_of_read h
  exact ⟨hall, hle, read_render hall hle⟩

end

theorem read_render_read_power : Expr.read "(-2 ^ x)" =
    .ok (.binary .power (.unary .negate (.const 2)) (.var "x")) := by
  have hread : Expr.read "-2.0^((x))" =
      .ok (.binary .power (.unary .negate (.const 2)) (.var "x")) := by decide +kernel
  have hrender : (Expr.binary .power (.unary .negate (.const 2)) (.var "x")).render =
      "(-2 ^ x)" := by
    decide +kernel
  have := (read_render_read hread).2.2
  rwa [hrender] at this

end Formula
