import Formula.Proofs.Transparency

/-!
# One formula for many values

Evaluating a formula for many values at once answers as evaluating it for one after the other does,
and leaves the same readings behind: only the first of many readings of one formula changes what is
kept.

* `Calculator.Sound.reads_front`: the formula whose reading is in front is read.
* `Calculator.Sound.kept_reads_again`: a formula is read twice in a row.
* `Calculator.Sound.kept_run_evaluate`, `Calculator.Sound.run_evaluate`: it is evaluated many times
  in a row.
* **`evaluateAll_eq_run`**: at once or one after the other.
-/

namespace Formula.Calculator

section

variable {σ : Type} [Store σ String Reading] {c c' c'' : Calculator σ} {text : String}

/-! ## Readings of one formula in a row -/

theorem Sound.reads_front (h : c.Sound) {reading : Reading} {others : List (String × Reading)}
    {result : Except ReadError Reading} (hkept : c.kept = (text, reading) :: others)
    (hreads : c.Reads text result c') : result = .ok reading ∧ c'.kept = c.kept := by
  have hlookup : c.kept.lookup text = some reading := by rw [hkept, List.lookup_cons_self]
  obtain ⟨rfl, hfront⟩ := hreads.of_lookup hlookup
  have hnodup := h.nodup
  rw [texts, hkept, List.map_cons, List.nodup_cons] at hnodup
  -- the others have other formulas, so none of them is taken out
  have hothers : others.filter (·.1 ≠ text) = others := by
    refine List.filter_eq_self.2 fun entry hmem => decide_eq_true fun heq => hnodup.1 ?_
    exact List.mem_map.2 ⟨entry, hmem, heq⟩
  refine ⟨rfl, ?_⟩
  rw [hfront, hkept, List.filter_cons_of_neg (by simp), hothers]

theorem Sound.kept_reads_again (h : c.Sound) (hroom : 0 < c.room)
    {first second : Except ReadError Reading}
    (hreads : c.Reads text first c') (hagain : c'.Reads text second c'') : c''.kept = c'.kept := by
  have hsound := h.reads hreads
  cases first with
  | error e =>
    have hread : Expr.read text = .error e := (h.map_reads hreads).symm
    exact hsound.kept_of_error hread hagain
  | ok reading =>
    obtain ⟨others, hkept⟩ := hreads.exists_kept_eq hroom
    exact (hsound.reads_front hkept hagain).2

variable [LawfulStore σ] [Parallel]

/-- **Evaluating a formula many times keeps what reading it once keeps.** -/
theorem Sound.kept_run_evaluate (h : c.Sound) (hroom : 0 < c.room) (values : Values)
    (cases : List Values) :
    (c.run ((values :: cases).map (.evaluate text))).2.kept = (c.read text).2.kept := by
  have hsnd (c : Calculator σ) (values : Values) :
      (c.respond (.evaluate text values)).2 = (c.read text).2 := respond_snd c rfl
  induction cases generalizing c values with
  | nil => exact congrArg kept (hsnd c values)
  | cons next cases ih =>
    have hreads := reads_read c text
    have hagain := h.kept_reads_again hroom hreads (reads_read _ text)
    have hrun : (c.run ((values :: next :: cases).map (.evaluate text))).2 =
        ((c.respond (.evaluate text values)).2.run ((next :: cases).map (.evaluate text))).2 := rfl
    rw [hrun, hsnd]
    exact (ih (h.reads hreads) (by rwa [hreads.room_eq]) next).trans hagain

variable [LawfulParallel]

theorem Sound.evaluate_fst (h : c.Sound) (text : String) (values : Values) :
    (c.evaluate text values).1 = Formula.evaluate text values :=
  Answer.value.inj (h.respond_fst (.evaluate text values))

theorem Sound.evaluateAll_fst (h : c.Sound) (text : String) (cases : List Values) :
    (c.evaluateAll text cases).1 = (Expr.read text).map fun e => cases.map e.eval :=
  Answer.values.inj (h.respond_fst (.evaluateAll text cases))

theorem Sound.run_evaluate (h : c.Sound) (text : String) (cases : List Values) :
    (c.run (cases.map (.evaluate text))).1 =
      cases.map fun values => .value (Formula.evaluate text values) := by
  induction cases generalizing c with
  | nil => rfl
  | cons values cases ih =>
    rw [List.map_cons, List.map_cons, ← h.evaluate_fst text values,
      ← ih (h.respond (.evaluate text values))]
    rfl

/-! ## At once or one after the other -/

/-- **Evaluating a formula for many values** answers as one evaluation after the other does, and
keeps the same readings. A formula that cannot be read is refused, and changes nothing. -/
theorem evaluateAll_eq_run (capacity : Nat) (requests : List Request) (text : String)
    (cases : List Values) :
    let c : Calculator σ := after capacity requests
    let batch := c.evaluateAll text cases
    let single := c.run (cases.map (.evaluate text))
    ((∃ results, batch.1 = .ok results) ↔ ∃ e, Expr.read text = .ok e) ∧
      (∀ results, batch.1 = .ok results →
        single.1 = results.map fun result => .value (result.mapError .eval)) ∧
      (cases ≠ [] → batch.2.kept = single.2.kept) ∧
      (cases = [] → batch.2.kept = (c.read text).2.kept) ∧
      ∀ e, Expr.read text = .error e →
        batch.1 = .error e ∧ single.1 = cases.map (fun _ => .value (.error (.read e))) ∧
          batch.2.kept = c.kept ∧ single.2.kept = c.kept := by
  intro c batch single
  have hsound : c.Sound := sound_after capacity requests
  have hroom : 0 < c.room := by
    rw [room_after]
    omega
  have hresult : batch.1 = (Expr.read text).map fun e => cases.map e.eval :=
    hsound.evaluateAll_fst text cases
  have hanswers : single.1 = cases.map fun values => .value (Formula.evaluate text values) :=
    hsound.run_evaluate text cases
  have hbatch : batch.2.kept = (c.read text).2.kept :=
    congrArg kept (respond_snd c (rfl : (Request.evaluateAll text cases).text? = some text))
  have hsingle : cases ≠ [] → single.2.kept = (c.read text).2.kept := by
    intro hne
    cases cases with
    | nil => exact absurd rfl hne
    | cons values cases => exact hsound.kept_run_evaluate hroom values cases
  refine ⟨?_, fun results hok => ?_, fun hne => hbatch.trans (hsingle hne).symm, fun _ => hbatch,
    fun e he => ⟨?_, ?_, ?_, ?_⟩⟩
  · rw [hresult]
    cases Expr.read text <;> simp [Except.map]
  · rw [hresult, map_eq_ok_iff] at hok
    obtain ⟨e, he, rfl⟩ := hok
    rw [hanswers, List.map_map]
    refine List.map_congr_left fun values _ => ?_
    rw [Formula.evaluate, he]
    rfl
  · rw [hresult, he]
    rfl
  · rw [hanswers]
    refine List.map_congr_left fun values _ => ?_
    rw [Formula.evaluate, he]
    rfl
  · exact hbatch.trans (hsound.kept_of_error he (reads_read c text))
  · cases cases with
    | nil => rfl
    | cons values cases =>
      exact (hsingle (List.cons_ne_nil _ _)).trans (hsound.kept_of_error he (reads_read c text))

end

/-- Two of the three values make the quotient fail, each in its own way. The reading of `y` is
forgotten for that of the quotient, be it evaluated three times or once. -/
theorem evaluateAll_eq_run_quotient :
    let c : Calculator := after 1 [.read "y"]
    let cases := [Values.ofList [("x", 0)], .empty, .ofList [("x", 2)]]
    (c.run (cases.map (.evaluate "1/x"))).1 = [.value (.error (.eval (.zeroDivisor 1))),
        .value (.error (.eval (.unboundName "x"))), .value (.ok 0.5)] ∧
      (c.evaluateAll "1/x" cases).2.kept = (c.run (cases.map (.evaluate "1/x"))).2.kept ∧
      (c.evaluateAll "1/x" []).2.kept = (c.read "1/x").2.kept ∧
      (c.evaluateAll "1/" cases).1 = .error (.assembly (.missingLeft "/")) ∧
      (c.evaluateAll "1/" cases).2.kept = c.kept := by
  intro c cases
  have hresult : (c.evaluateAll "1/x" cases).1 =
      .ok [.error (.zeroDivisor 1), .error (.unboundName "x"), .ok 0.5] := by decide +kernel
  have hunread : Expr.read "1/" = .error (.assembly (.missingLeft "/")) := by decide +kernel
  obtain ⟨-, hanswers, hkept, -, -⟩ :=
    @evaluateAll_eq_run (Recent String Reading) _ _ _ _ 1 [.read "y"] "1/x" cases
  obtain ⟨-, -, -, hnone, -⟩ :=
    @evaluateAll_eq_run (Recent String Reading) _ _ _ _ 1 [.read "y"] "1/x" []
  obtain ⟨-, -, -, -, hfailed⟩ :=
    @evaluateAll_eq_run (Recent String Reading) _ _ _ _ 1 [.read "y"] "1/" cases
  obtain ⟨herror, -, hsame, -⟩ := hfailed _ hunread
  exact ⟨hanswers _ hresult, hkept (List.cons_ne_nil _ _), hnone rfl, herror, hsame⟩

end Formula.Calculator
