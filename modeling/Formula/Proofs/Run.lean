import Mathlib.Control.Monad.Basic

/-!
# Runs that may fail

A run takes a list element by element through a step that may fail, and stops at the first failure.

* `bind_eq_ok_iff`, `bind_eq_error_iff`: one step after another.
* `foldlM_cons_of_ok`, `foldlM_append_of_ok`: a run that has gone well so far.
* **`foldlM_cons_eq_ok_iff`**: a run that goes well goes well at its first step.
* `foldlM_append_eq_ok_iff`: a run of one list behind another.
* `foldlM_prefix_induction`: what each step keeps is kept by a run.
* **`foldlM_eq_error_iff`**: a run that fails does so at one of its elements.
* `foldlM_map_of_step`: two runs whose steps are the same.
-/

namespace Formula

section

variable {ε α β : Type} {σ τ : Type}

@[simp] theorem ok_bind (a : α) (f : α → Except ε β) : (Except.ok a >>= f) = f a := rfl

@[simp] theorem error_bind (e : ε) (f : α → Except ε β) : (Except.error e >>= f) = .error e := rfl

theorem bind_eq_ok_iff {x : Except ε α} {f : α → Except ε β} {b : β} :
    (x >>= f) = .ok b ↔ ∃ a, x = .ok a ∧ f a = .ok b := by
  cases x with
  | error e => simp
  | ok a => simp

theorem bind_eq_error_iff {x : Except ε α} {f : α → Except ε β} {e : ε} :
    (x >>= f) = .error e ↔ x = .error e ∨ ∃ a, x = .ok a ∧ f a = .error e := by
  cases x with
  | error e' => simp
  | ok a => simp

theorem mapError_eq_ok_iff {δ : Type} {x : Except ε α} {f : ε → δ} {a : α} :
    x.mapError f = .ok a ↔ x = .ok a := by
  cases x <;> simp [Except.mapError]

theorem mapError_eq_error_iff {δ : Type} {x : Except ε α} {f : ε → δ} {d : δ} :
    x.mapError f = .error d ↔ ∃ e, x = .error e ∧ f e = d := by
  cases x <;> simp [Except.mapError]

theorem map_eq_ok_iff {x : Except ε α} {f : α → β} {b : β} :
    x.map f = .ok b ↔ ∃ a, x = .ok a ∧ f a = b := by
  cases x <;> simp [Except.map]

variable {step : σ → τ → Except ε σ} {s s' : σ} {x : τ} {xs ys : List τ}

theorem foldlM_cons_of_ok (h : step s x = .ok s') :
    (x :: xs).foldlM step s = xs.foldlM step s' := by
  rw [List.foldlM_cons, h, ok_bind]

theorem foldlM_append_of_ok (h : xs.foldlM step s = .ok s') :
    (xs ++ ys).foldlM step s = ys.foldlM step s' := by
  rw [List.foldlM_append, h, ok_bind]

theorem foldlM_cons_eq_ok_iff {t : σ} :
    (x :: xs).foldlM step s = .ok t ↔ ∃ s', step s x = .ok s' ∧ xs.foldlM step s' = .ok t := by
  rw [List.foldlM_cons, bind_eq_ok_iff]

theorem foldlM_append_eq_ok_iff {t : σ} :
    (xs ++ ys).foldlM step s = .ok t ↔
      ∃ s', xs.foldlM step s = .ok s' ∧ ys.foldlM step s' = .ok t := by
  rw [List.foldlM_append, bind_eq_ok_iff]

/-- **What each step keeps, of the elements up to there and of the state, a run keeps.** -/
theorem foldlM_prefix_induction {P : List τ → σ → Prop}
    (keeps : ∀ {xs : List τ} {s s' : σ} {x : τ}, P xs s → step s x = .ok s' → P (xs ++ [x]) s')
    (h : P xs s) (hrun : ys.foldlM step s = .ok s') : P (xs ++ ys) s' := by
  induction ys generalizing xs s with
  | nil =>
    cases hrun
    rwa [List.append_nil]
  | cons y ys ih =>
    obtain ⟨next, hstep, hrun⟩ := foldlM_cons_eq_ok_iff.1 hrun
    have := ih (keeps h hstep) hrun
    rwa [List.append_assoc] at this

/-- **A run that fails goes well up to the first element whose step fails.** -/
theorem foldlM_eq_error_iff {e : ε} :
    xs.foldlM step s = .error e ↔ ∃ before x after s', xs = before ++ x :: after ∧
      before.foldlM step s = .ok s' ∧ step s' x = .error e := by
  constructor
  · intro h
    induction xs generalizing s with
    | nil => cases h
    | cons x xs ih =>
      rw [List.foldlM_cons] at h
      rcases bind_eq_error_iff.1 h with hstep | ⟨next, hstep, h⟩
      · exact ⟨[], x, xs, s, rfl, rfl, hstep⟩
      · obtain ⟨before, y, after, s', rfl, hbefore, herror⟩ := ih h
        exact ⟨x :: before, y, after, s', rfl, (foldlM_cons_of_ok hstep).trans hbefore, herror⟩
  · rintro ⟨before, x, after, s', rfl, hbefore, herror⟩
    rw [foldlM_append_of_ok hbefore, List.foldlM_cons, herror, error_bind]

/-- **A step that is the same on other states and elements makes a run the same.** -/
theorem foldlM_map_of_step {σ' τ' : Type} {step' : σ' → τ' → Except ε σ'} {f : σ → σ'} {g : τ → τ'}
    (hstep : ∀ s x, step' (f s) (g x) = (step s x).map f) (xs : List τ) (s : σ) :
    (xs.map g).foldlM step' (f s) = (xs.foldlM step s).map f := by
  induction xs generalizing s with
  | nil => rfl
  | cons x xs ih =>
    rw [List.map_cons, List.foldlM_cons, List.foldlM_cons, hstep]
    cases step s x with
    | error e => rfl
    | ok next => exact ih next

end

end Formula
