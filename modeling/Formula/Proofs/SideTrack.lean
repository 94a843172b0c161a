import Formula.Proofs.Balance
import Mathlib.Data.List.Chain

/-!
# What waits on the side track

Between two tokens, what waits in the yard shows which parentheses are open, and which operators
have yet to be applied. Of two operators that wait on top of each other the upper one binds tighter,
or it is unary: such a one lets nothing leave, so it may also wait on one that binds as tightly.

* `MayWaitOn`: what may wait directly on top of what; `mayWaitOn_of_leavesFor`.
* `Yard.isChain_of_moves`, **`Yard.isChain_of_run`**: one token, and a run, keep all that waits so.
* `Yard.openParen_or_operator_of_run`, `Yard.isSome_priority_of_run`: what can wait at all.
* **`waiting_of_run`**: what waits after a run, and what has left.
-/

namespace Formula

/-- **Whether a token may wait directly on top of another one.** Of two operators the upper one has
to bind tighter, unless it is unary. -/
def MayWaitOn (upper lower : Token) : Prop :=
  ∀ f g, upper = .operator f → lower = .operator g → f.isUnary = true ∨ g.priority < f.priority

theorem mayWaitOn_openParen (lower : Token) : MayWaitOn .openParen lower := by
  intro f g hf
  cases hf

theorem mayWaitOn_of_leavesFor {op : Operator} {lower : Token}
    (h : Yard.leavesFor id op lower = false) : MayWaitOn (.operator op) lower := by
  rintro f g hf rfl
  cases hf
  simp only [Yard.leavesFor, id, Operator.goesBefore, Bool.and_eq_false_iff, Bool.not_eq_false',
    decide_eq_false_iff_not, Nat.not_le] at h
  exact h

namespace Yard

variable {yard yard' : Yard Token}

/-- What waits is cut from the top, and at most one token is put on top of the rest. -/
theorem isChain_of_moves {t : Token} (h : yard.waiting.IsChain MayWaitOn)
    (hmoves : Moves yard t yard') : yard'.waiting.IsChain MayWaitOn := by
  cases hmoves with
  | number text | identifier name => exact h
  | openParen => exact List.isChain_cons.2 ⟨fun lower _ => mayWaitOn_openParen lower, h⟩
  | operator op hleft hbelow =>
    have hrest := h.suffix (List.suffix_append ..)
    exact List.isChain_cons.2
      ⟨fun lower hlower => mayWaitOn_of_leavesFor (hbelow lower hlower), hrest⟩
  | closeParen hleft =>
    have hopen := h.suffix (List.suffix_append ..)
    exact hopen.tail

/-- **Wherever a run has come, each operator may wait on the one below it.** -/
theorem isChain_of_run {ts : List Token} (hrun : ts.foldlM (step id) {} = .ok yard) :
    yard.waiting.IsChain MayWaitOn :=
  -- nothing is said of the tokens that have come in, so the run has to be told where it begins
  @foldlM_prefix_induction _ _ _ _ _ _ [] ts (fun _ yard => yard.waiting.IsChain MayWaitOn)
    (fun h hstep => isChain_of_moves h (moves_of_step hstep)) List.isChain_nil hrun

theorem priority_lt_of_isChain {waiting above below : List Token} {upper lower : Operator}
    (h : waiting.IsChain MayWaitOn)
    (heq : waiting = above ++ .operator upper :: .operator lower :: below) :
    upper.isUnary = true ∨ lower.priority < upper.priority := by
  rw [heq, List.isChain_append] at h
  exact (List.isChain_cons_cons.1 h.2.1).1 upper lower rfl rfl

section

variable {ts : List Token} {t : Token} (hrun : ts.foldlM (step id) {} = .ok yard)
  (ht : t ∈ yard.waiting)

include hrun ht

theorem openParen_or_operator_of_run : t = .openParen ∨ ∃ op, t = .operator op := by
  have hholds : Holds ts yard := holds_nil.run hrun
  rcases hholds.waiting_operator t ht with rfl | hkind
  · exact .inl rfl
  · cases t with
    | operator op => exact .inr ⟨op, rfl⟩
    | openParen | closeParen | number | identifier => cases hkind

/-- Close parentheses and operands have no priority, and never wait. -/
theorem isSome_priority_of_run : t.priority.isSome = true := by
  obtain rfl | ⟨op, rfl⟩ := openParen_or_operator_of_run hrun ht
  · rfl
  · rfl

end

end Yard

/-- **What waits after a run**: the parentheses that are open, and operators, each unary or tighter
than the one below it. Each token but a parenthesis waits or has left just once. -/
theorem waiting_of_run {ts : List Token} {yard : Yard Token}
    (hrun : ts.foldlM (Yard.step id) {} = .ok yard) :
    (∀ t ∈ yard.waiting, t = .openParen ∨ ∃ op, t = .operator op) ∧
      (yard.waiting.count .openParen : Int) = ts.count .openParen - ts.count .closeParen ∧
      (∀ above upper lower below, yard.waiting =
        above ++ .operator upper :: .operator lower :: below →
        upper.isUnary = true ∨ lower.priority < upper.priority) ∧
      (yard.output ++ bare yard.waiting).Perm (bare ts) := by
  have hholds : Yard.Holds ts yard := Yard.holds_nil.run hrun
  have hdepth : yard.waiting.count .openParen + ts.count .closeParen = ts.count .openParen :=
    Yard.depth_of_run hrun
  refine ⟨fun t => Yard.openParen_or_operator_of_run hrun, by omega, ?_, hholds.perm⟩
  exact fun above upper lower below => Yard.priority_lt_of_isChain (Yard.isChain_of_run hrun)

/-- The negation waits on a root that binds as tightly, and both on a product; the open parenthesis
keeps the product from the sum. -/
theorem waiting_of_run_root :
    let ts : List Token := [.identifier "a", .operator (.binary .add), .openParen, .identifier "b",
      .operator (.binary .multiply), .operator (.unary .squareRoot), .operator (.unary .negate),
      .identifier "c"]
    let yard : Yard Token := ⟨[.identifier "c", .identifier "b", .identifier "a"],
      [.operator (.unary .negate), .operator (.unary .squareRoot), .operator (.binary .multiply),
        .openParen, .operator (.binary .add)]⟩
    ts.foldlM (Yard.step id) {} = .ok yard ∧
      (yard.waiting.count .openParen : Int) = ts.count .openParen - ts.count .closeParen ∧
      (∀ above upper lower below, yard.waiting =
        above ++ .operator upper :: .operator lower :: below →
        upper.isUnary = true ∨ lower.priority < upper.priority) ∧
      (yard.output ++ bare yard.waiting).Perm (bare ts) := by
  intro ts yard
  have hrun : ts.foldlM (Yard.step id) {} = .ok yard := rfl
  exact ⟨hrun, (waiting_of_run hrun).2⟩

end Formula
