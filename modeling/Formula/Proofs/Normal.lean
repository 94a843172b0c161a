import Formula.Expr.Eval
import Formula.Expr.Render
import Formula.Proofs.Grammar
import Formula.Proofs.SignMagnitude
import Formula.Proofs.Literal

/-!
# Trees as they are read

A constant that is read from a formula has no sign, since the minus sign in front of a number is a
negation.

* `Expr.All`: a property of all constants and one of all names of a tree; `IsMagnitude`.
* `Expr.norm`: the tree with a negation for each sign of a constant.
* **`render_norm`**, **`eval_norm`**: it has the same text and the same values.
* `norm_eq_self_iff`: it is the same tree if no constant has a sign.
-/

namespace Formula

open Numeral (isSigned)

/-- The float is finite and has no sign, like all that number tokens stand for. -/
def IsMagnitude (x : Float) : Prop :=
  x.isFinite = true ∧ isSigned x = false

namespace Expr

/-! ## Constants and names -/

/-- Every constant and every name in the tree has its property. -/
def All (onConst : Float → Prop) (onName : String → Prop) : Expr → Prop
  | const x => onConst x
  | var name => onName name
  | unary _ operand => operand.All onConst onName
  | binary _ first second => first.All onConst onName ∧ second.All onConst onName

/-- The tree with each constant that has a sign replaced by the negation of one that has none. -/
def norm : Expr → Expr
  | const x => if isSigned x then .unary .negate (.const (-x)) else .const x
  | var name => .var name
  | unary op operand => .unary op operand.norm
  | binary op first second => .binary op first.norm second.norm

section

variable {onName : String → Prop} {t : Expr}

theorem all_norm (h : t.All (fun x => x.isFinite = true) onName) :
    t.norm.All IsMagnitude onName := by
  induction t with
  | const x =>
    rw [norm]
    split
    · next hs =>
      refine ⟨Numeral.isFinite_neg h, ?_⟩
      rw [Numeral.isSigned_neg h, hs]
      rfl
    · next hs => exact ⟨h, Bool.eq_false_iff.2 hs⟩
  | var name => exact h
  | unary op operand ih => exact ih h
  | binary op first second ih₁ ih₂ => exact ⟨ih₁ h.1, ih₂ h.2⟩

theorem norm_eq_self_iff : t.norm = t ↔ t.All (fun x => isSigned x = false) fun _ => True := by
  induction t with
  | const x =>
    rw [norm, All]
    split
    · next hs => simp [hs]
    · next hs => simp [hs]
  | var name => simp [norm, All]
  | unary op operand ih => simpa [norm, All] using ih
  | binary op first second ih₁ ih₂ => simp [norm, All, ih₁, ih₂]

/-- **The minus sign of a constant is written like a negation.** -/
theorem render_norm (h : t.All (fun x => x.isFinite = true) onName) :
    t.norm.render = t.render := by
  induction t with
  | const x =>
    rw [norm]
    split
    · next hs =>
      have hwrite := Numeral.writeChars_of_isSigned h hs
      rw [render, render, render, UnaryOp.around, ← String.toList_inj]
      simp [Numeral.write, hwrite]
    · rfl
  | var name => rfl
  | unary op operand ih => rw [norm, render, render, ih h]
  | binary op first second ih₁ ih₂ => rw [norm, render, render, ih₁ h.1, ih₂ h.2]

/-- **The tree has the same values**, and fails in the same way. -/
theorem eval_norm (h : t.All (fun x => x.isFinite = true) onName) (values : Values) :
    t.norm.eval values = t.eval values := by
  induction t with
  | const x =>
    rw [norm]
    split
    · change Except.ok (- -x) = _
      rw [Numeral.neg_neg h]
      rfl
    · rfl
  | var name => rfl
  | unary op operand ih => rw [norm, eval, eval, ih h]
  | binary op first second ih₁ ih₂ => rw [norm, eval, eval, ih₁ h.1, ih₂ h.2]

end

end Expr

end Formula
