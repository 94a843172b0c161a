import Formula.Proofs.Reordering

/-!
# Counting parentheses

The yard counts nothing, but as many parentheses wait in it as have been opened and not yet closed.

* `Overclosed`: among the first tokens, more parentheses are closed than opened.
* `Yard.depth_of_moves`, **`Yard.depth_of_run`**: one token, and a run, change the depth by what is
  counted.
* `Yard.exists_run_iff`, `Yard.eq_unmatchedClose_of_run`: a run gets through unless too many are
  closed.
* `toPostfix_eq_error_iff`: why tokens fail, one cause for each error.
* **`errors_of_toPostfix`**: which tokens fail, and how.
-/

namespace Formula

/-- Among the first tokens, up to some place, more parentheses are closed than opened. -/
def Overclosed (ts : List Token) : Prop :=
  ∃ us, us <+: ts ∧ us.count .openParen < us.count .closeParen

namespace Yard

/-! ## Open parentheses -/

section

variable {yard yard' : Yard Token} {ts us : List Token}

theorem depth_of_moves {t : Token} (hmoves : Moves yard t yard') :
    yard'.depth + [t].count .closeParen = yard.depth + [t].count .openParen := by
  cases hmoves with
  | number text | identifier name => rfl
  | openParen => simp [depth]
  | @operator output left below op hleft hbelow =>
    rw [depth, depth, count_release (ne_openParen_of_leavesFor hleft)]
    rfl
  | @closeParen output left below hleft =>
    rw [depth, depth, count_release hleft]
    simp

/-- **As many parentheses wait as have been opened and not closed.** -/
theorem depth_of_run (hrun : ts.foldlM (step id) {} = .ok yard) :
    yard.depth + ts.count .closeParen = ts.count .openParen := by
  have hstart : depth {} + [].count Token.closeParen = [].count Token.openParen := rfl
  refine foldlM_prefix_induction
    (P := fun ts yard => depth yard + ts.count .closeParen = ts.count .openParen) ?_ hstart hrun
  intro us yard yard' t h hstep
  have hmoves := depth_of_moves (moves_of_step hstep)
  rw [List.count_append, List.count_append]
  omega

/-! ## How a run fails -/

theorem eq_unmatchedClose_of_run {e : ParenError} (hrun : ts.foldlM (step id) {} = .error e) :
    e = .unmatchedClose := by
  obtain ⟨before, t, after, yard, rfl, -, hstep⟩ := foldlM_eq_error_iff.1 hrun
  exact (step_eq_error_iff.1 hstep).2.2

theorem overclosed_of_run {e : ParenError} (hrun : ts.foldlM (step id) {} = .error e) :
    Overclosed ts := by
  obtain ⟨before, t, after, yard, rfl, hbefore, hstep⟩ := foldlM_eq_error_iff.1 hrun
  obtain ⟨rfl, hdepth, -⟩ := step_eq_error_iff.1 hstep
  refine ⟨before ++ [.closeParen], ⟨after, by simp⟩, ?_⟩
  have hcount := depth_of_run hbefore
  have hopen : [Token.closeParen].count .openParen = 0 := rfl
  have hclose : [Token.closeParen].count .closeParen = 1 := rfl
  rw [List.count_append, List.count_append, hopen, hclose]
  omega

/-- **A run gets through exactly if no parenthesis is closed too many.** -/
theorem exists_run_iff :
    (∃ yard : Yard Token, ts.foldlM (step id) {} = .ok yard) ↔ ¬ Overclosed ts := by
  constructor
  · rintro ⟨yard, hrun⟩ ⟨us, ⟨vs, rfl⟩, hlt⟩
    obtain ⟨next, hus, -⟩ := foldlM_append_eq_ok_iff.1 hrun
    have hcount := depth_of_run hus
    omega
  · intro h
    cases hrun : ts.foldlM (step id) {} with
    | ok yard => exact ⟨yard, rfl⟩
    | error e => exact absurd (overclosed_of_run hrun) h

end

end Yard

/-! ## How tokens fail -/

theorem toPostfix_eq_error_iff {ts : List Token} {e : ParenError} :
    Token.toPostfix ts = .error e ↔
      Overclosed ts ∧ e = .unmatchedClose ∨
        ¬ Overclosed ts ∧ ts.count .closeParen < ts.count .openParen ∧ e = .unclosedOpen := by
  rw [Token.toPostfix, Yard.order, bind_eq_error_iff]
  cases hrun : ts.foldlM (Yard.step id) {} with
  | error e' =>
    obtain rfl := Yard.eq_unmatchedClose_of_run hrun
    simp [Yard.overclosed_of_run hrun, eq_comm]
  | ok yard =>
    have hopen : ¬ Overclosed ts := Yard.exists_run_iff.1 ⟨yard, hrun⟩
    have hdepth : yard.depth ≠ 0 ↔ ts.count .closeParen < ts.count .openParen := by
      have hcount := Yard.depth_of_run hrun
      omega
    simp [hopen, Yard.finish_eq_error_iff, hdepth]

/-- **Tokens fail only for their parentheses**: at a closing one if more are closed than opened up
to some place, and else at an opening one if more are opened in all. -/
theorem errors_of_toPostfix (ts : List Token) :
    (Token.toPostfix ts = .error .unmatchedClose ↔ Overclosed ts) ∧
      (Token.toPostfix ts = .error .unclosedOpen ↔
        ¬ Overclosed ts ∧ ts.count .closeParen < ts.count .openParen) ∧
      ((∃ out, Token.toPostfix ts = .ok out) ↔
        ¬ Overclosed ts ∧ ¬ ts.count .closeParen < ts.count .openParen) := by
  refine ⟨by simp [toPostfix_eq_error_iff], by simp [toPostfix_eq_error_iff], ?_⟩
  constructor
  · rintro ⟨out, hout⟩
    have hnone (e : ParenError) : Token.toPostfix ts ≠ .error e := by simp [hout]
    have hclose : ¬ Overclosed ts := fun h => hnone _ (toPostfix_eq_error_iff.2 (.inl ⟨h, rfl⟩))
    exact ⟨hclose, fun h => hnone _ (toPostfix_eq_error_iff.2 (.inr ⟨hclose, h, rfl⟩))⟩
  · rintro ⟨hclose, hopen⟩
    cases hout : Token.toPostfix ts with
    | ok out => exact ⟨out, rfl⟩
    | error e =>
      rcases toPostfix_eq_error_iff.1 hout with ⟨h, -⟩ | ⟨-, h, -⟩
      · exact absurd h hclose
      · exact absurd h hopen

end Formula
