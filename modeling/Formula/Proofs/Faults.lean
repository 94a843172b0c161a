import Formula.Proofs.Juxtaposition
import Formula.Proofs.Listing
import Formula.Proofs.Refusals

/-!
# The token at fault

Whether a token in postfix order can be assembled shows from the tokens before it alone. No stack is
needed to tell the first one that cannot, nor the error.

* `Assembly.Stacked.surplus_eq`, `Assembly.Stacked.foldl_gather`: what the stack has to do with the
  tokens.
* `Fault`: why a token cannot be assembled behind those before it;
  **`Assembly.Stacked.refuses_iff_fault`**.
* `Faultless`: no token is at fault; `Assembly.exists_run_iff_faultless`,
  `Assembly.exists_run_and_iff`.
* **`ofPostfix_faults`**: tokens fail at the first one at fault, or for the number of operands that
  are over.
-/

namespace Formula

/-! ## The stack and the tokens before it -/

theorem Sketch.listing_of_assemble {e : Sketch} {tree : Subtree} (h : e.assemble = .ok tree) :
    Listing tree.expr e.postorder :=
  listing_iff_sketch.2 ⟨e, rfl, (assemble_ok h).1⟩

namespace Assembly

section

variable {ts : List Token} {stack : List Subtree}

theorem Stacked.surplus_eq (h : Stacked ts stack) : surplus ts = stack.length := by
  induction h with
  | nil => rfl
  | cons h he ih => rw [surplus_append, surplus_postorder, ih, List.length_cons, Int.natCast_succ]

theorem Stacked.foldl_gather (h : Stacked ts stack) :
    ts.foldl Expr.gather [] = stack.map Subtree.expr := by
  induction h with
  | nil => rfl
  | cons h he ih =>
    rw [List.foldl_append, ih, (Sketch.listing_of_assemble he).foldl_gather, List.map_cons]

theorem Stacked.exists_listing {tree : Subtree} (h : Stacked ts (tree :: stack)) :
    ∃ us vs, ts = us ++ vs ∧ Stacked us stack ∧ Listing tree.expr vs := by
  cases h with
  | @cons us _ e _ h he => exact ⟨us, e.postorder, rfl, h, Sketch.listing_of_assemble he⟩

end

end Assembly

/-! ## Faults -/

/-- **Why a token cannot be assembled** behind the tokens before it. The tree that is finished with
an operator is listed by the tokens up to there. -/
inductive Fault (before : List Token) : Token → AssemblyError → Prop where
  | parenthesis {t : Token} (h : t.kind = .parenthesis) : Fault before t (.unexpectedToken t.text)
  | number {text : String} (h : Numeral.readFinite? text = none) :
    Fault before (.number text) (.invalidNumber text)
  | operand (op : UnaryOp) (h : surplus before = 0) :
    Fault before (.operator (.unary op)) (.missingOperand op.symbol)
  | right (op : BinaryOp) (h : surplus before = 0) :
    Fault before (.operator (.binary op)) (.missingRight op.symbol)
  | left (op : BinaryOp) (h : surplus before = 1) :
    Fault before (.operator (.binary op)) (.missingLeft op.symbol)
  | high {op : Operator} {tree : Expr} {ts : List Token} (h : Listing tree ts)
    (hts : ts <:+ before ++ [.operator op]) (hheight : maxHeight < tree.height) :
    Fault before (.operator op) (.tooHigh maxHeight)

def Faultless (ts : List Token) : Prop :=
  ∀ before t after error, ts = before ++ t :: after → ¬ Fault before t error

namespace Assembly

section

variable {ts us : List Token} {stack : List Subtree} {t : Token} {error : AssemblyError}

theorem Stacked.refuses_of_listing (h : Stacked ts stack) {op : Operator} {tree : Expr}
    (hlisting : Listing tree us) (hus : us <:+ ts ++ [.operator op])
    (hheight : maxHeight < tree.height) : Refuses stack (.operator op) (.tooHigh maxHeight) := by
  obtain ⟨rest, hrest⟩ := hus
  have hgather := h.foldl_gather
  cases hlisting with
  | const | var => exact absurd hheight (Nat.not_lt.2 one_le_maxHeight)
  | @unary op' operand vs hoperand =>
    rw [← List.append_assoc] at hrest
    obtain ⟨rfl, hlast⟩ := List.append_inj' hrest rfl
    cases hlast
    rw [List.foldl_append, hoperand.foldl_gather] at hgather
    obtain ⟨subtree, below, rfl, hexpr, -⟩ := List.map_eq_cons_iff.1 hgather.symm
    refine .highUnary op' ?_
    rwa [← subtree.height_eq, hexpr]
  | @binary op' first second vs ws hfirst hsecond =>
    rw [← List.append_assoc, ← List.append_assoc] at hrest
    obtain ⟨rfl, hlast⟩ := List.append_inj' hrest rfl
    cases hlast
    rw [List.foldl_append, List.foldl_append, hfirst.foldl_gather, hsecond.foldl_gather] at hgather
    obtain ⟨b, below, rfl, hb, hbelow⟩ := List.map_eq_cons_iff.1 hgather.symm
    obtain ⟨a, below, rfl, ha, -⟩ := List.map_eq_cons_iff.1 hbelow
    refine .highBinary op' ?_
    rwa [← a.height_eq, ← b.height_eq, ha, hb]

theorem Stacked.refuses_of_fault (h : Stacked ts stack) (hfault : Fault ts t error) :
    Refuses stack t error := by
  have hsurplus := h.surplus_eq
  cases hfault with
  | parenthesis hkind => exact .parenthesis hkind
  | number hnone => exact .number hnone
  | operand op hzero =>
    obtain rfl : stack = [] := List.length_eq_zero_iff.1 (by omega)
    exact .operand op
  | right op hzero =>
    obtain rfl : stack = [] := List.length_eq_zero_iff.1 (by omega)
    exact .right op
  | left op hone =>
    obtain ⟨only, rfl⟩ := List.length_eq_one_iff.1 (show stack.length = 1 by omega)
    exact .left op only
  | high hlisting hus hheight => exact h.refuses_of_listing hlisting hus hheight

theorem Stacked.fault_of_refuses (h : Stacked ts stack) (hrefuses : Refuses stack t error) :
    Fault ts t error := by
  have hsurplus := h.surplus_eq
  cases hrefuses with
  | number hnone => exact .number hnone
  | parenthesis hkind => exact .parenthesis hkind
  | operand op => exact .operand op hsurplus
  | right op => exact .right op hsurplus
  | left op only => exact .left op hsurplus
  | @highUnary op operand below hlt =>
    obtain ⟨us, vs, rfl, -, hoperand⟩ := h.exists_listing
    refine .high (.unary op hoperand) ⟨us, by simp⟩ ?_
    rwa [Expr.height, operand.height_eq]
  | @highBinary op first second below hlt =>
    obtain ⟨us, ws, rfl, hus, hsecond⟩ := h.exists_listing
    obtain ⟨us, vs, rfl, -, hfirst⟩ := hus.exists_listing
    refine .high (.binary op hfirst hsecond) ⟨us, by simp⟩ ?_
    rwa [Expr.height, first.height_eq, second.height_eq]

/-- **What is refused on the stack is at fault behind the tokens before it.** -/
theorem Stacked.refuses_iff_fault (h : Stacked ts stack) :
    Refuses stack t error ↔ Fault ts t error :=
  ⟨h.fault_of_refuses, h.refuses_of_fault⟩

/-- **Tokens are all laid on the stack exactly if none of them is at fault.** -/
theorem exists_run_iff_faultless : (∃ stack, ts.foldlM step [] = .ok stack) ↔ Faultless ts := by
  constructor
  · rintro ⟨stack, hrun⟩ before t after error rfl hfault
    obtain ⟨next, hbefore, hafter⟩ := foldlM_append_eq_ok_iff.1 hrun
    obtain ⟨_, hstep, -⟩ := foldlM_cons_eq_ok_iff.1 hafter
    rw [step_of_refuses ((stacked_of_run hbefore).refuses_iff_fault.2 hfault)] at hstep
    cases hstep
  · intro h
    cases hrun : ts.foldlM step [] with
    | ok stack => exact ⟨stack, rfl⟩
    | error error =>
      obtain ⟨before, t, after, stack, hts, hbefore, hstep⟩ := foldlM_eq_error_iff.1 hrun
      have hfault := (stacked_of_run hbefore).refuses_iff_fault.1 (refuses_of_step hstep)
      exact absurd hfault (h before t after error hts)

theorem exists_run_and_iff {P : List Subtree → Prop} {Q : Prop}
    (h : ∀ stack, Stacked ts stack → (P stack ↔ Q)) :
    (∃ stack, ts.foldlM step [] = .ok stack ∧ P stack) ↔ Faultless ts ∧ Q := by
  rw [← exists_run_iff_faultless]
  constructor
  · rintro ⟨stack, hrun, hP⟩
    exact ⟨⟨stack, hrun⟩, (h stack (stacked_of_run hrun)).1 hP⟩
  · rintro ⟨⟨stack, hrun⟩, hQ⟩
    exact ⟨stack, hrun, (h stack (stacked_of_run hrun)).2 hQ⟩

theorem exists_refuses_iff :
    (∃ stack, ts.foldlM step [] = .ok stack ∧ Refuses stack t error) ↔
      Faultless ts ∧ Fault ts t error :=
  exists_run_and_iff fun _ h => h.refuses_iff_fault

theorem exists_treesLeft_iff :
    (∃ stack, ts.foldlM step [] = .ok stack ∧ stack.length ≠ 1 ∧ error = .treesLeft stack.length) ↔
      Faultless ts ∧ ∃ n : Nat, surplus ts = n ∧ n ≠ 1 ∧ error = .treesLeft n := by
  refine exists_run_and_iff fun stack h => ?_
  rw [h.surplus_eq]
  constructor
  · rintro ⟨hne, herror⟩
    exact ⟨stack.length, rfl, hne, herror⟩
  · rintro ⟨n, hn, hne, herror⟩
    obtain rfl : stack.length = n := Int.ofNat.inj hn
    exact ⟨hne, herror⟩

theorem exists_result_iff :
    (∃ stack, ts.foldlM step [] = .ok stack ∧ ∃ t, result stack = .ok t) ↔
      Faultless ts ∧ surplus ts = 1 := by
  refine exists_run_and_iff fun stack h => ?_
  have hone : (stack.length : Int) = 1 ↔ stack.length = 1 := by omega
  rw [h.surplus_eq, hone, List.length_eq_one_iff]
  simp [result_eq_ok_iff]

end

end Assembly

/-! ## Which error is reported -/

/-- **Tokens fail at the first one that is at fault, with its error.** If none is, they make up a
tree exactly if one operand is over, and else fail with the number of those that are. -/
theorem ofPostfix_faults (ts : List Token) :
    (∀ error, Expr.ofPostfix ts = .error error ↔
      (∃ before t after, ts = before ++ t :: after ∧ Faultless before ∧ Fault before t error) ∨
        Faultless ts ∧ ∃ n : Nat, surplus ts = n ∧ n ≠ 1 ∧ error = .treesLeft n) ∧
      ((∃ t, Expr.ofPostfix ts = .ok t) ↔ Faultless ts ∧ surplus ts = 1) := by
  refine ⟨fun error => ?_, ?_⟩
  · rw [ofPostfix_eq_error_iff, Assembly.exists_treesLeft_iff]
    simp only [← Assembly.exists_refuses_iff, exists_and_left]
  · rw [← Assembly.exists_result_iff]
    simp only [Expr.ofPostfix, bind_eq_ok_iff]
    constructor
    · rintro ⟨t, stack, hrun, ht⟩
      exact ⟨stack, hrun, t, ht⟩
    · rintro ⟨stack, hrun, t, ht⟩
      exact ⟨t, stack, hrun, ht⟩

/-- The parenthesis is never looked at. -/
example : Expr.ofPostfix [.identifier "x", .operator (.binary .add), .closeParen] =
    .error (.missingLeft "+") := rfl

end Formula
