import Formula.Proofs.Grammar
import Formula.Proofs.Run

/-!
# Assembling a tree from its postorder

* `Sketch.assemble`: a tree of texts made into a subtree, or the first reason why it cannot be.
* **`Assembly.run_postorder`**: the tokens of a tree in postorder lay just this subtree on the
  stack.
* `Sketch.assemble_ok`, `Sketch.assemble_error`: when it works, and why it fails.
* **`ofPostfix_postorder`**: the tree is assembled if its numbers are finite and its levels few
  enough.
* **`ofPostfix_eq_ok_iff`**: nothing else is assembled, since `Assembly.Stacked` holds of every run.
-/

namespace Formula

/-- The subtree of a tree of texts, or the first reason from the left why there is none. -/
def Sketch.assemble : Sketch → Except AssemblyError Subtree
  | number text =>
    match Numeral.readFinite? text with
    | some x => .ok (.const x)
    | none => .error (.invalidNumber text)
  | var name => .ok (.var name)
  | unary op operand => do
    (Subtree.unary op (← operand.assemble)).checkHeight
  | binary op first second => do
    let a ← first.assemble
    let b ← second.assemble
    (Subtree.binary op a b).checkHeight

namespace Assembly

/-! ## One token -/

theorem step_unary (op : UnaryOp) (a : Subtree) (stack : List Subtree) :
    step (a :: stack) (.operator (.unary op)) =
      (Subtree.unary op a).checkHeight >>= fun tree => pure (tree :: stack) := by
  cases stack <;> rfl

theorem step_binary (op : BinaryOp) (a b : Subtree) (stack : List Subtree) :
    step (b :: a :: stack) (.operator (.binary op)) =
      (Subtree.binary op a b).checkHeight >>= fun tree => pure (tree :: stack) :=
  rfl

/-! ## A tree -/

/-- **The tokens of a tree in postorder lay its subtree on the stack**, and fail where it fails. -/
theorem run_postorder (e : Sketch) (stack : List Subtree) :
    e.postorder.foldlM step stack = e.assemble >>= fun tree => pure (tree :: stack) := by
  induction e generalizing stack with
  | number text =>
    rw [Sketch.postorder, Sketch.assemble, List.foldlM_cons, step]
    cases Numeral.readFinite? text <;> rfl
  | var name => rfl
  | unary op operand ih =>
    rw [Sketch.postorder, Sketch.assemble, List.foldlM_append, ih]
    cases operand.assemble with
    | error e => rfl
    | ok a =>
      simp only [ok_bind, pure, Except.pure]
      rw [List.foldlM_cons, step_unary]
      cases (Subtree.unary op a).checkHeight <;> rfl
  | binary op first second ih₁ ih₂ =>
    rw [Sketch.postorder, Sketch.assemble, List.foldlM_append, List.foldlM_append, ih₁]
    cases first.assemble with
    | error e => rfl
    | ok a =>
      simp only [ok_bind, pure, Except.pure]
      rw [ih₂]
      cases second.assemble with
      | error e => rfl
      | ok b =>
        simp only [ok_bind, pure, Except.pure]
        rw [List.foldlM_cons, step_binary]
        cases (Subtree.binary op a b).checkHeight <;> rfl

end Assembly

/-! ## When it works -/

theorem one_le_maxHeight : 1 ≤ maxHeight := by decide

theorem checkHeight_eq_ok_iff {tree tree' : Subtree} :
    tree.checkHeight = .ok tree' ↔ tree = tree' ∧ tree.height ≤ maxHeight := by
  rw [Subtree.checkHeight]
  split <;> simp <;> omega

theorem checkHeight_eq_error_iff {tree : Subtree} {error : AssemblyError} :
    tree.checkHeight = .error error ↔ error = .tooHigh maxHeight ∧ maxHeight < tree.height := by
  rw [Subtree.checkHeight]
  split <;> simp [eq_comm] <;> omega

namespace Sketch

theorem assemble_ok {e : Sketch} {tree : Subtree} (h : e.assemble = .ok tree) :
    e.expr? = some tree.expr ∧ tree.height ≤ maxHeight := by
  induction e generalizing tree with
  | number text =>
    rw [assemble] at h
    split at h
    · next x hx =>
      cases h
      exact ⟨expr?_number_eq_some_iff.2 ⟨x, hx, rfl⟩, one_le_maxHeight⟩
    · cases h
  | var name =>
    cases h
    exact ⟨rfl, one_le_maxHeight⟩
  | unary op operand ih =>
    obtain ⟨a, ha, h⟩ := bind_eq_ok_iff.1 h
    obtain ⟨rfl, hle⟩ := checkHeight_eq_ok_iff.1 h
    exact ⟨expr?_unary_eq_some_iff.2 ⟨_, (ih ha).1, rfl⟩, hle⟩
  | binary op first second ih₁ ih₂ =>
    obtain ⟨a, ha, h⟩ := bind_eq_ok_iff.1 h
    obtain ⟨b, hb, h⟩ := bind_eq_ok_iff.1 h
    obtain ⟨rfl, hle⟩ := checkHeight_eq_ok_iff.1 h
    exact ⟨expr?_binary_eq_some_iff.2 ⟨_, _, (ih₁ ha).1, (ih₂ hb).1, rfl⟩, hle⟩

theorem height_assemble {e : Sketch} {tree : Subtree} (h : e.assemble = .ok tree) :
    tree.height = e.height := by
  rw [← tree.height_eq, height_of_expr? (assemble_ok h).1]

theorem assemble_error {e : Sketch} {error : AssemblyError} (h : e.assemble = .error error) :
    (∃ text ∈ e.texts, Numeral.readFinite? text = none ∧ error = .invalidNumber text) ∨
      maxHeight < e.height ∧ error = .tooHigh maxHeight := by
  induction e with
  | number text =>
    rw [assemble] at h
    split at h
    · cases h
    · next hx =>
      cases h
      exact .inl ⟨text, List.mem_singleton_self _, hx, rfl⟩
  | var name => cases h
  | unary op operand ih =>
    rcases bind_eq_error_iff.1 h with ha | ⟨a, ha, h⟩
    · rcases ih ha with hnum | ⟨hlt, herr⟩
      · exact .inl hnum
      · exact .inr ⟨Nat.lt_succ_of_lt hlt, herr⟩
    · obtain ⟨herr, hlt⟩ := checkHeight_eq_error_iff.1 h
      have hheight := height_assemble ha
      simp only [Subtree.unary] at hlt
      exact .inr ⟨by rw [height]; omega, herr⟩
  | binary op first second ih₁ ih₂ =>
    rcases bind_eq_error_iff.1 h with ha | ⟨a, ha, h⟩
    · rcases ih₁ ha with ⟨text, hmem, hnum⟩ | ⟨hlt, herr⟩
      · exact .inl ⟨text, List.mem_append_left _ hmem, hnum⟩
      · exact .inr ⟨by rw [height]; omega, herr⟩
    rcases bind_eq_error_iff.1 h with hb | ⟨b, hb, h⟩
    · rcases ih₂ hb with ⟨text, hmem, hnum⟩ | ⟨hlt, herr⟩
      · exact .inl ⟨text, List.mem_append_right _ hmem, hnum⟩
      · exact .inr ⟨by rw [height]; omega, herr⟩
    · obtain ⟨herr, hlt⟩ := checkHeight_eq_error_iff.1 h
      have ha' := height_assemble ha
      have hb' := height_assemble hb
      simp only [Subtree.binary] at hlt
      exact .inr ⟨by rw [height]; omega, herr⟩

end Sketch

/-! ## The whole stack -/

theorem ofPostfix_postorder_eq (e : Sketch) :
    Expr.ofPostfix e.postorder = e.assemble.map Subtree.expr := by
  rw [Expr.ofPostfix, Assembly.run_postorder]
  cases e.assemble <;> rfl

/-- **A tree with finite numbers and few enough levels is assembled from its postorder.** -/
theorem ofPostfix_postorder {e : Sketch} {t : Expr} (ht : e.expr? = some t)
    (hle : t.height ≤ maxHeight) : Expr.ofPostfix e.postorder = .ok t := by
  rw [ofPostfix_postorder_eq]
  cases h : e.assemble with
  | ok tree =>
    have := (Sketch.assemble_ok h).1
    rw [ht] at this
    rw [Option.some.inj this]
    rfl
  | error error =>
    rcases Sketch.assemble_error h with ⟨text, hmem, hnone, -⟩ | ⟨hlt, -⟩
    · rw [Sketch.expr?_eq_none_iff.2 ⟨text, hmem, hnone⟩] at ht
      cases ht
    · have := Sketch.height_of_expr? ht
      omega

theorem ofPostfix_postorder_error {e : Sketch}
    (h : (∃ text ∈ e.texts, Numeral.readFinite? text = none) ∨ maxHeight < e.height) :
    (∃ text ∈ e.texts, Numeral.readFinite? text = none ∧
        Expr.ofPostfix e.postorder = .error (.invalidNumber text)) ∨
      maxHeight < e.height ∧ Expr.ofPostfix e.postorder = .error (.tooHigh maxHeight) := by
  rw [ofPostfix_postorder_eq]
  cases ha : e.assemble with
  | ok tree =>
    obtain ⟨hexpr, hle⟩ := Sketch.assemble_ok ha
    have hheight := Sketch.height_assemble ha
    rcases h with h | h
    · rw [Sketch.expr?_eq_none_iff.2 h] at hexpr
      cases hexpr
    · omega
  | error error =>
    rcases Sketch.assemble_error ha with ⟨text, hmem, hnone, rfl⟩ | ⟨hlt, rfl⟩
    · exact .inl ⟨text, hmem, hnone, rfl⟩
    · exact .inr ⟨hlt, rfl⟩

theorem ofPostfix_postorder_of_expr? {e : Sketch} {t : Expr} (ht : e.expr? = some t) :
    Expr.ofPostfix e.postorder =
      if t.height ≤ maxHeight then .ok t else .error (.tooHigh maxHeight) := by
  split
  · next hle => exact ofPostfix_postorder ht hle
  · next hlt =>
    rw [Sketch.height_of_expr? ht, Nat.not_le] at hlt
    rcases ofPostfix_postorder_error (.inr hlt) with ⟨text, hmem, hnone, -⟩ | ⟨-, herror⟩
    · rw [Sketch.expr?_eq_none_iff.2 ⟨text, hmem, hnone⟩] at ht
      cases ht
    · exact herror

/-! ## What has been assembled -/

namespace Assembly

/-- The tokens are trees in postorder, one behind the other, and their subtrees lie on the stack. -/
inductive Stacked : List Token → List Subtree → Prop where
  | nil : Stacked [] []
  | cons {ts : List Token} {stack : List Subtree} {e : Sketch} {tree : Subtree}
    (h : Stacked ts stack) (he : e.assemble = .ok tree) :
    Stacked (ts ++ e.postorder) (tree :: stack)

section

variable {ts : List Token} {stack stack' : List Subtree}

theorem Stacked.unary (h : Stacked ts stack) (op : UnaryOp)
    (hstep : step stack (.operator (.unary op)) = .ok stack') :
    Stacked (ts ++ [.operator (.unary op)]) stack' := by
  cases h with
  | nil => cases hstep
  | @cons ts stack e a h he =>
    rw [step_unary] at hstep
    obtain ⟨tree, htree, hstep⟩ := bind_eq_ok_iff.1 hstep
    cases hstep
    rw [List.append_assoc]
    refine .cons (e := .unary op e) h ?_
    rw [Sketch.assemble, he]
    exact htree

theorem Stacked.binary (h : Stacked ts stack) (op : BinaryOp)
    (hstep : step stack (.operator (.binary op)) = .ok stack') :
    Stacked (ts ++ [.operator (.binary op)]) stack' := by
  cases h with
  | nil => cases hstep
  | @cons ts stack f b h hf =>
    cases h with
    | nil => cases hstep
    | @cons ts stack e a h he =>
      rw [step_binary] at hstep
      obtain ⟨tree, htree, hstep⟩ := bind_eq_ok_iff.1 hstep
      cases hstep
      rw [List.append_assoc, List.append_assoc, ← List.append_assoc e.postorder]
      refine .cons (e := .binary op e f) h ?_
      rw [Sketch.assemble, he, hf]
      exact htree

theorem Stacked.step {t : Token} (h : Stacked ts stack) (hstep : step stack t = .ok stack') :
    Stacked (ts ++ [t]) stack' := by
  cases t with
  | number text =>
    rw [Assembly.step] at hstep
    split at hstep
    · next x hx =>
      cases hstep
      exact .cons (e := .number text) h (by rw [Sketch.assemble, hx])
    · cases hstep
  | identifier name =>
    cases hstep
    exact .cons (e := .var name) h rfl
  | openParen => cases hstep
  | closeParen => cases hstep
  | operator op =>
    cases op with
    | unary op => exact h.unary op hstep
    | binary op => exact h.binary op hstep

theorem Stacked.run {us : List Token} (h : Stacked ts stack)
    (hrun : us.foldlM Assembly.step stack = .ok stack') : Stacked (ts ++ us) stack' :=
  foldlM_prefix_induction Stacked.step h hrun

theorem stacked_of_run (hrun : ts.foldlM Assembly.step [] = .ok stack) : Stacked ts stack :=
  Stacked.nil.run hrun

end

theorem result_eq_ok_iff {stack : List Subtree} {t : Expr} :
    result stack = .ok t ↔ ∃ tree, stack = [tree] ∧ tree.expr = t := by
  match stack with
  | [] | _ :: _ :: _ => simp [result]
  | [tree] => simp [result]

end Assembly

/-- **A tree is assembled from its postorder only.** -/
theorem ofPostfix_eq_ok_iff {ts : List Token} {t : Expr} :
    Expr.ofPostfix ts = .ok t ↔
      ∃ e : Sketch, ts = e.postorder ∧ e.expr? = some t ∧ t.height ≤ maxHeight := by
  constructor
  · intro h
    obtain ⟨stack, hrun, hresult⟩ := bind_eq_ok_iff.1 h
    obtain ⟨tree, rfl, rfl⟩ := Assembly.result_eq_ok_iff.1 hresult
    obtain ⟨⟩ | ⟨hnil, he⟩ := Assembly.stacked_of_run hrun
    cases hnil
    obtain ⟨hexpr, hle⟩ := Sketch.assemble_ok he
    exact ⟨_, rfl, hexpr, by rwa [tree.height_eq]⟩
  · rintro ⟨e, rfl, hexpr, hle⟩
    exact ofPostfix_postorder hexpr hle

end Formula
