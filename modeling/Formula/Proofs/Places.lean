import Formula.Proofs.Reordering
import Mathlib.Data.List.Perm.Subperm

/-!
# Where tokens come from

The cars of a yard may carry the places of their tokens along. This tells which token comes out
before which other one.

* `Yard.map`: a yard with other cars; `Yard.step_map`, **`Yard.order_map`**: only the tokens matter.
* `Yard.Traced`: no car is made up, and what has left before an operand came in before it.
* `Yard.Traced.step`, `Yard.Traced.run`, **`Yard.traced_order`**: one car, all cars, and their
  order.
* `Yard.perm_of_order`: just the cars that carry no parenthesis come out.
* **`places_of_toPostfix`**: tokens in postfix order, with the places that they had.
-/

namespace Formula

/-- Whether the token is a number or a name. -/
def Token.isOperand (t : Token) : Bool :=
  t.kind == .number || t.kind == .identifier

namespace Yard

variable {α : Type}

/-! ## Other cars with the same tokens -/

/-- The yard with every car replaced. -/
def map {β : Type} (f : α → β) (yard : Yard α) : Yard β :=
  ⟨yard.output.map f, yard.waiting.map f⟩

section

variable {β : Type} (token : β → Token) (f : α → β)

theorem close_map (yard : Yard α) :
    (yard.map f).close token = (yard.close (token ∘ f)).map (map f) := by
  obtain ⟨output, waiting⟩ := yard
  simp only [close, map, List.dropWhile_map, List.takeWhile_map, Function.comp_def]
  cases waiting.dropWhile (fun car => token (f car) != .openParen) with
  | nil => rfl
  | cons car below => simp [Except.map, map]

theorem step_map (yard : Yard α) (car : α) :
    step token (yard.map f) (f car) = (step (token ∘ f) yard car).map (map f) := by
  obtain ⟨output, waiting⟩ := yard
  simp only [step, Function.comp_apply]
  cases token (f car) with
  | number | identifier | openParen => rfl
  | operator op =>
    have hleaves : leavesFor token op ∘ f = leavesFor (token ∘ f) op := rfl
    simp [putOperator, map, Except.map, List.takeWhile_map, List.dropWhile_map, hleaves]
  | closeParen => exact close_map token f _

theorem finish_map (yard : Yard α) :
    (yard.map f).finish token = (yard.finish (token ∘ f)).map (List.map f) := by
  simp only [finish, map, List.any_map, Function.comp_def]
  split
  · rfl
  · simp [Except.map]

/-- **Cars are put into the order of their tokens.** -/
theorem order_map (cars : List α) :
    order token (cars.map f) = (order (token ∘ f) cars).map (List.map f) := by
  have hrun : (cars.map f).foldlM (step token) {} = _ :=
    foldlM_map_of_step (step_map token f) cars {}
  rw [order, order, hrun]
  cases cars.foldlM (step (token ∘ f)) {} with
  | error e => rfl
  | ok yard => exact finish_map token f yard

end

/-! ## What leaves before an operand -/

variable (token : α → Token) (R : α → α → Prop)

/-- No car is made up and no operand waits. When an operand has left, what left before it stands in
the relation to it. -/
structure Traced (cars : List α) (yard : Yard α) : Prop where
  waiting : ∀ car ∈ yard.waiting, (token car).isOperand = false
  subperm : (yard.output ++ yard.waiting).Subperm cars
  ordered :
    yard.output.Pairwise fun later earlier => (token later).isOperand = true → R earlier later

variable {token R} {cars output waiting left below : List α} {car : α}

theorem traced_nil : Traced token R [] {} :=
  ⟨by simp, .refl _, .nil⟩

theorem Traced.subperm_concat {yard : Yard α} (h : Traced token R cars yard) (car : α) :
    (car :: (yard.output ++ yard.waiting)).Subperm (cars ++ [car]) :=
  ((List.subperm_cons car).2 h.subperm).trans (List.perm_append_singleton car cars).symm.subperm

theorem Traced.release (h : Traced token R cars ⟨output, left ++ below⟩) :
    Traced token R cars ⟨left.reverse ++ output, below⟩ := by
  refine ⟨fun car hcar => h.waiting car (List.mem_append_right _ hcar), ?_, ?_⟩
  · have hperm : (left.reverse ++ output ++ below).Perm (output ++ (left ++ below)) := by
      rw [← List.append_assoc]
      have hleft : (left.reverse ++ output).Perm (output ++ left) :=
        ((List.reverse_perm left).append_right output).trans List.perm_append_comm
      exact hleft.append_right below
    exact hperm.subperm.trans h.subperm
  · have hnone : ∀ later ∈ left.reverse, ∀ earlier,
        (token later).isOperand = true → R earlier later := by
      intro later hlater earlier hoperand
      have hidle := h.waiting later (List.mem_append_left _ (List.mem_reverse.1 hlater))
      exact Bool.noConfusion (hoperand.symm.trans hidle)
    refine List.pairwise_append.2
      ⟨?_, h.ordered, fun later hlater earlier _ => hnone later hlater earlier⟩
    exact List.pairwise_of_forall_mem_list fun later hlater earlier _ => hnone later hlater earlier

theorem Traced.pass (h : Traced token R cars ⟨output, waiting⟩)
    (hR : ∀ earlier ∈ cars, R earlier car) :
    Traced token R (cars ++ [car]) ⟨car :: output, waiting⟩ := by
  have hout : ∀ earlier ∈ output, R earlier car := fun earlier hearlier =>
    hR earlier (h.subperm.subset (List.mem_append_left _ hearlier))
  exact ⟨h.waiting, h.subperm_concat car,
    List.pairwise_cons.2 ⟨fun earlier hearlier _ => hout earlier hearlier, h.ordered⟩⟩

theorem Traced.wait (h : Traced token R cars ⟨output, waiting⟩)
    (hcar : (token car).isOperand = false) :
    Traced token R (cars ++ [car]) ⟨output, car :: waiting⟩ := by
  refine ⟨?_, List.perm_middle.subperm.trans (h.subperm_concat car), h.ordered⟩
  intro other hother
  rcases List.mem_cons.1 hother with rfl | hother
  · exact hcar
  · exact h.waiting other hother

theorem Traced.drop {paren : α} (h : Traced token R cars ⟨output, paren :: waiting⟩) :
    Traced token R (cars ++ [car]) ⟨output, waiting⟩ := by
  refine ⟨fun other hother => h.waiting other (List.mem_cons_of_mem _ hother), ?_, h.ordered⟩
  have hsublist : (output ++ waiting).Sublist (output ++ paren :: waiting) :=
    (List.sublist_cons_self paren waiting).append_left output
  exact (hsublist.subperm.trans h.subperm).trans (List.sublist_append_left cars [car]).subperm

theorem Traced.step {yard yard' : Yard α} (h : Traced token R cars yard)
    (hR : ∀ earlier ∈ cars, R earlier car) (hstep : step token yard car = .ok yard') :
    Traced token R (cars ++ [car]) yard' := by
  obtain ⟨output, waiting⟩ := yard
  rw [Yard.step] at hstep
  split at hstep
  · cases hstep
    exact h.pass hR
  · cases hstep
    exact h.pass hR
  · next htoken =>
    cases hstep
    exact h.wait (by rw [htoken]; rfl)
  · rw [close] at hstep
    split at hstep
    · cases hstep
    · next paren below hdrop =>
      cases hstep
      rw [← List.takeWhile_append_dropWhile (p := (token · != .openParen)) (l := waiting),
        hdrop] at h
      exact h.release.drop
  · next op htoken =>
    cases hstep
    rw [← List.takeWhile_append_dropWhile (p := leavesFor token op) (l := waiting)] at h
    exact h.release.wait (by rw [htoken]; rfl)

theorem Traced.run {yard : Yard α} (hR : cars.Pairwise R)
    (hrun : cars.foldlM (Yard.step token) {} = .ok yard) : Traced token R cars yard := by
  refine foldlM_prefix_induction (P := fun cars yard => cars.Pairwise R → Traced token R cars yard)
    (fun h hstep hR => ?_) (fun _ => traced_nil) hrun hR
  obtain ⟨hcars, -, hcar⟩ := List.pairwise_append.1 hR
  exact (h hcars).step (fun earlier hearlier =>
    hcar earlier hearlier _ (List.mem_singleton_self _)) hstep

/-- **What comes out before an operand came in before it**, in any relation that holds of the cars
as they came in. At the end all that waits leaves. -/
theorem traced_order {out : List α} (h : order token cars = .ok out) (hR : cars.Pairwise R) :
    Traced token R cars ⟨out.reverse, []⟩ := by
  obtain ⟨⟨output, waiting⟩, hrun, hfinish⟩ := bind_eq_ok_iff.1 h
  have htraced := Traced.run hR hrun
  rw [finish] at hfinish
  split at hfinish
  · cases hfinish
  · cases hfinish
    rw [← List.append_nil waiting] at htraced
    rw [List.reverse_append, List.reverse_reverse]
    exact htraced.release

theorem perm_of_order {out : List α} (h : order token cars = .ok out) :
    out.Perm (cars.filter fun car => (token car).kind != .parenthesis) := by
  have htokens : Token.toPostfix (cars.map token) = .ok (out.map token) := by
    rw [Token.toPostfix, order_map]
    exact congrArg (Except.map (List.map token)) h
  have hbare : out.filter (fun car => (token car).kind != .parenthesis) = out :=
    List.filter_eq_self.2 fun car hcar =>
      bne_iff_ne.2 (kind_of_toPostfix htokens _ (List.mem_map_of_mem hcar))
  have htrivial : cars.Pairwise fun _ _ => True :=
    List.pairwise_of_forall_mem_list fun _ _ _ _ => trivial
  have hsubperm : out.Subperm cars := by
    have := (traced_order h htrivial).subperm
    rw [List.append_nil] at this
    exact (List.reverse_perm out).symm.subperm.trans this
  -- there are as many cars as tokens
  have hlength := (perm_of_toPostfix htokens).length_eq
  rw [bare, List.filter_map, List.length_map, List.length_map] at hlength
  have hfiltered := hsubperm.filter fun car => (token car).kind != .parenthesis
  rw [hbare] at hfiltered
  exact hfiltered.perm_of_length_le hlength.ge

end Yard

/-! ## Places in the text -/

theorem pairwise_zipIdx (ts : List Token) :
    ts.zipIdx.Pairwise fun earlier later => earlier.2 < later.2 := by
  have hplaces : (ts.zipIdx.map Prod.snd).Pairwise (· < ·) := by
    rw [List.zipIdx_map_snd]
    exact List.pairwise_lt_range'
  exact List.pairwise_map.1 hplaces

/-- **Postfix order moves only operators, and none in front of an operand that stood before it.** It
holds all tokens but the parentheses, and the operands as they were. -/
theorem places_of_toPostfix {ts out : List Token} (h : Token.toPostfix ts = .ok out) :
    (∀ t ∈ out, t.kind ≠ .parenthesis) ∧ operands out = operands ts ∧
      (∀ op, out.count (.operator op) = ts.count (.operator op)) ∧ out.Perm (bare ts) ∧
      ∃ placed : List (Token × Nat), Yard.order Prod.fst ts.zipIdx = .ok placed ∧
        placed.map Prod.fst = out ∧
        placed.Perm (ts.zipIdx.filter fun place => place.1.kind != .parenthesis) ∧
        placed.Pairwise fun earlier later => later.1.isOperand = true → earlier.2 < later.2 := by
  refine ⟨kind_of_toPostfix h, operands_of_toPostfix h,
    fun op => count_eq_of_toPostfix h (by simp [Token.kind]), perm_of_toPostfix h, ?_⟩
  have hplaced := Yard.order_map id Prod.fst ts.zipIdx
  rw [List.zipIdx_map_fst] at hplaced
  obtain ⟨placed, horder, hout⟩ := map_eq_ok_iff.1 (hplaced.symm.trans h)
  have htraced := Yard.traced_order horder (pairwise_zipIdx ts)
  exact ⟨placed, horder, hout, Yard.perm_of_order horder, List.pairwise_reverse.1 htraced.ordered⟩

/-- The product comes out last, though it stood before the two operands of the difference. Nothing
that comes out before one of these stood behind it. -/
theorem places_of_toPostfix_product :
    Token.toPostfix [.identifier "a", .operator (.binary .multiply), .openParen, .identifier "b",
        .operator (.binary .subtract), .number "3", .closeParen] =
        .ok [.identifier "a", .identifier "b", .number "3", .operator (.binary .subtract),
          .operator (.binary .multiply)] ∧
      ∃ placed : List (Token × Nat),
        placed.Perm [(.identifier "a", 0), (.operator (.binary .multiply), 1), (.identifier "b", 3),
          (.operator (.binary .subtract), 4), (.number "3", 5)] ∧
        placed.map Prod.fst =
          [.identifier "a", .identifier "b", .number "3", .operator (.binary .subtract),
            .operator (.binary .multiply)] ∧
        placed.Pairwise fun earlier later => later.1.isOperand = true → earlier.2 < later.2 := by
  have hordered : Token.toPostfix [.identifier "a", .operator (.binary .multiply), .openParen,
      .identifier "b", .operator (.binary .subtract), .number "3", .closeParen] =
      .ok [.identifier "a", .identifier "b", .number "3", .operator (.binary .subtract),
        .operator (.binary .multiply)] := by decide
  obtain ⟨-, -, -, -, placed, -, hout, hperm, hplaces⟩ := places_of_toPostfix hordered
  exact ⟨hordered, placed, hperm, hout, hplaces⟩

end Formula
