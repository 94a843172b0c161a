import Formula.Proofs.Names

/-!
# What the value of a tree depends on

The value of a tree depends on what its names stand for and on nothing else, and no name is reported
as unbound before those that the tree needs first.

* `Expr.eval_congr`: values that agree on the names of a tree give it the same value.
* `Expr.firstUnbound?`: the first name of a tree without a value; `Expr.firstUnbound?_binary`.
* `Expr.firstUnbound?_of_ok`, `Expr.firstUnbound?_of_unboundName`: what a result says of it.
* **`eval_depends_on_names`**: all of this for each tree.
-/

namespace Formula

/-- The operation has no value at its operands. -/
def EvalError.IsDomain : EvalError → Prop
  | unboundName _ => False
  | negativeRoot _ | zeroDivisor _ | logarithmDomain _ _ => True

theorem find?_eraseDups {α : Type} [DecidableEq α] (p : α → Bool) (xs : List α) :
    xs.eraseDups.find? p = xs.find? p := by
  induction xs using distinct_induction with
  | nil => rfl
  | cons x xs ih =>
    rw [eraseDups_cons_eq]
    by_cases hx : p x = true
    · rw [List.find?_cons_of_pos hx, List.find?_cons_of_pos hx]
    · rw [List.find?_cons_of_neg hx, List.find?_cons_of_neg hx, ih, List.find?_filter]
      -- the element that was taken out is none that is looked for
      congr 1
      funext y
      by_cases h : y = x <;> simp [h, hx]

namespace Expr

variable {values others : Values} {name : String}

/-! ## Values that agree -/

/-- **Values that agree on the names of a tree give it the same value.** -/
theorem eval_congr {e : Expr} (h : ∀ name ∈ e.occurrences, values name = others name) :
    e.eval values = e.eval others := by
  induction e with
  | const x => rfl
  | var name => rw [eval, eval, h name (List.mem_singleton_self _)]
  | unary op operand ih => rw [eval, eval, ih h]
  | binary op first second ih₁ ih₂ =>
    have hfirst := ih₁ fun name hmem => h name (List.mem_append_left _ hmem)
    have hsecond := ih₂ fun name hmem => h name (List.mem_append_right _ hmem)
    rw [eval, eval, hfirst, hsecond]

/-! ## The first name without a value -/

/-- The first name of the tree that stands for nothing. -/
def firstUnbound? (values : Values) (e : Expr) : Option String :=
  e.names.find? fun name => (values name).isNone

theorem firstUnbound?_eq (values : Values) (e : Expr) :
    e.firstUnbound? values = e.occurrences.find? fun name => (values name).isNone := by
  rw [firstUnbound?, names_eq, find?_eraseDups]

theorem firstUnbound?_var (values : Values) (name : String) :
    (var name).firstUnbound? values = if (values name).isNone then some name else none := by
  rw [firstUnbound?_eq, occurrences, List.find?_singleton]

theorem firstUnbound?_unary (values : Values) (op : UnaryOp) (operand : Expr) :
    (unary op operand).firstUnbound? values = operand.firstUnbound? values := by
  rw [firstUnbound?_eq, firstUnbound?_eq, occurrences]

theorem firstUnbound?_binary (values : Values) (op : BinaryOp) (first second : Expr) :
    (binary op first second).firstUnbound? values =
      (first.firstUnbound? values).or (second.firstUnbound? values) := by
  simp only [firstUnbound?_eq, occurrences, List.find?_append]

theorem firstUnbound?_eq_none_iff {e : Expr} :
    e.firstUnbound? values = none ↔ ∀ name ∈ e.names, (values name).isSome = true := by
  rw [firstUnbound?, List.find?_eq_none]
  refine forall₂_congr fun name _ => ?_
  cases values name <;> simp

theorem firstUnbound?_of_ok {e : Expr} {x : Float} (h : e.eval values = .ok x) :
    e.firstUnbound? values = none := by
  induction e generalizing x with
  | const x => rfl
  | var name =>
    rw [eval] at h
    split at h
    · next y hname => simp [firstUnbound?_var, hname]
    · cases h
  | unary op operand ih =>
    obtain ⟨y, hy, -⟩ := bind_eq_ok_iff.1 h
    rw [firstUnbound?_unary, ih hy]
  | binary op first second ih₁ ih₂ =>
    obtain ⟨y, hy, h⟩ := bind_eq_ok_iff.1 h
    obtain ⟨z, hz, -⟩ := bind_eq_ok_iff.1 h
    rw [firstUnbound?_binary, ih₁ hy, ih₂ hz, Option.none_or]

/-- **The name that is reported is the first one without a value.** What comes before it has been
evaluated, so all names there are bound. -/
theorem firstUnbound?_of_unboundName {e : Expr} (h : e.eval values = .error (.unboundName name)) :
    e.firstUnbound? values = some name := by
  induction e with
  | const x => cases h
  | var other =>
    rw [eval] at h
    split at h
    · cases h
    · next hnone =>
      cases h
      simp [firstUnbound?_var, hnone]
  | unary op operand ih =>
    rw [firstUnbound?_unary]
    rcases bind_eq_error_iff.1 h with h | ⟨x, -, h⟩
    · exact ih h
    · exact absurd h (op.apply_ne_unboundName x name)
  | binary op first second ih₁ ih₂ =>
    rw [firstUnbound?_binary]
    rcases bind_eq_error_iff.1 h with h | ⟨x, hx, h⟩
    · rw [ih₁ h, Option.some_or]
    rcases bind_eq_error_iff.1 h with h | ⟨y, -, h⟩
    · rw [firstUnbound?_of_ok hx, ih₂ h, Option.none_or]
    · exact absurd h (op.apply_ne_unboundName x y name)

theorem eval_of_firstUnbound? {e : Expr} (h : e.firstUnbound? values = some name) :
    ∃ error, e.eval values = .error error ∧ (error = .unboundName name ∨ error.IsDomain) := by
  cases heval : e.eval values with
  | ok x =>
    rw [firstUnbound?_of_ok heval] at h
    cases h
  | error error =>
    refine ⟨error, rfl, ?_⟩
    cases error with
    | unboundName other =>
      rw [firstUnbound?_of_unboundName heval] at h
      cases h
      exact .inl rfl
    | negativeRoot | zeroDivisor | logarithmDomain => exact .inr trivial

end Expr

/-- **The value of a tree depends on its names alone.** If some of them are unbound, the first of
these is reported, or an operation has no value; if none is, no name is reported. -/
theorem eval_depends_on_names (e : Expr) (values : Values) :
    (∀ others : Values, (∀ name ∈ e.names, values name = others name) →
        e.eval values = e.eval others) ∧
      (∀ x, e.eval values = .ok x → ∀ name ∈ e.names, (values name).isSome = true) ∧
      (∀ name, e.eval values = .error (.unboundName name) → e.firstUnbound? values = some name) ∧
      (∀ missing ∈ e.names, values missing = none →
        ∃ error, e.eval values = .error error ∧
          ((∃ name, e.firstUnbound? values = some name ∧ error = .unboundName name) ∨
            error.IsDomain)) ∧
      ((∀ name ∈ e.names, (values name).isSome = true) →
        ∀ name, e.eval values ≠ .error (.unboundName name)) := by
  refine ⟨fun others hagree => ?_, fun x hx => ?_, fun name => Expr.firstUnbound?_of_unboundName,
    fun missing hmem hnone => ?_, fun hbound name heval => ?_⟩
  · exact Expr.eval_congr fun name hmem => hagree name (Expr.mem_names.2 hmem)
  · exact Expr.firstUnbound?_eq_none_iff.1 (Expr.firstUnbound?_of_ok hx)
  · cases hfirst : e.firstUnbound? values with
    | none =>
      have := Expr.firstUnbound?_eq_none_iff.1 hfirst missing hmem
      rw [hnone] at this
      cases this
    | some name =>
      obtain ⟨error, heval, herror⟩ := Expr.eval_of_firstUnbound? hfirst
      exact ⟨error, heval, herror.imp_left fun h => ⟨name, rfl, h⟩⟩
  · have hfirst := Expr.firstUnbound?_of_unboundName heval
    rw [Expr.firstUnbound?_eq_none_iff.2 hbound] at hfirst
    cases hfirst

/-- Of the two names that stand for nothing, the one that is needed first is reported, not the one
that is repeated. What else is bound does not matter. -/
theorem eval_depends_on_names_quotient :
    let e : Expr := .binary .divide (.var "x")
      (.binary .add (.var "y") (.binary .multiply (.var "z") (.var "y")))
    let values := Values.ofList [("x", 1)]
    e.eval values = .error (.unboundName "y") ∧ e.firstUnbound? values = some "y" ∧
      e.eval (values.bind "w" 2) = e.eval values ∧
      ∃ error, e.eval values = .error error ∧
        ((∃ name, e.firstUnbound? values = some name ∧ error = .unboundName name) ∨
          error.IsDomain) := by
  intro e values
  obtain ⟨hagree, -, hfirst, hmissing, -⟩ := eval_depends_on_names e values
  have heval : e.eval values = .error (.unboundName "y") := by decide +kernel
  exact ⟨heval, hfirst "y" heval, (hagree (values.bind "w" 2) (by decide +kernel)).symm,
    hmissing "z" (by decide +kernel) (by decide +kernel)⟩

end Formula
