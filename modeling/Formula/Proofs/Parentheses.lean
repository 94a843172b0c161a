import Formula.Proofs.Reordering

/-!
# What stands in parentheses

* `enclosed`: tokens in parentheses.
* `Yard.inside`: a yard in which an open parenthesis waits below everything else.
* `Yard.Moves.inside`, **`Yard.run_inside`**: nothing below the parenthesis takes part in what comes
  in.
* **`Yard.run_enclosed`**: tokens in parentheses leave the yard as they would by themselves.
* `toPostfix_enclosed`, `toPostfix_unary`, `toPostfix_binary`: operators whose operands are in
  parentheses.
-/

namespace Formula

def enclosed (ts : List Token) : List Token :=
  .openParen :: (ts ++ [.closeParen])

namespace Yard

/-! ## Behind an open parenthesis -/

/-- The yard behind an open parenthesis, which came in when other cars had left and waited. -/
def inside (yard : Yard Token) (output waiting : List Token) : Yard Token :=
  ⟨yard.output ++ output, yard.waiting ++ .openParen :: waiting⟩

section

variable {yard yard' : Yard Token} {output waiting : List Token}

/-- **One token does the same behind an open parenthesis.** -/
theorem Moves.inside {t : Token} (h : Moves yard t yard') :
    Moves (yard.inside output waiting) t (yard'.inside output waiting) := by
  cases h with
  | number text => exact .number text
  | identifier name => exact .identifier name
  | openParen => exact .openParen
  | @operator before left below op hleft hbelow =>
    -- the parenthesis itself leaves for no operator
    have hbelow' : ∀ t ∈ (below ++ .openParen :: waiting).head?, leavesFor id op t = false := by
      cases below with
      | nil =>
        intro t ht
        cases ht
        rfl
      | cons t below => exact hbelow
    have hmoves : Moves ⟨before ++ output, left ++ (below ++ .openParen :: waiting)⟩ _ _ :=
      .operator op hleft hbelow'
    simpa [Yard.inside] using hmoves
  | @closeParen before left below hleft =>
    have hmoves :
        Moves ⟨before ++ output, left ++ .openParen :: (below ++ .openParen :: waiting)⟩ _ _ :=
      .closeParen hleft
    simpa [Yard.inside] using hmoves

theorem run_inside {ts : List Token} (h : ts.foldlM (step id) yard = .ok yard') :
    ts.foldlM (step id) (yard.inside output waiting) = .ok (yard'.inside output waiting) := by
  induction ts generalizing yard with
  | nil =>
    cases h
    rfl
  | cons t ts ih =>
    obtain ⟨next, hstep, h⟩ := foldlM_cons_eq_ok_iff.1 h
    rw [foldlM_cons_of_ok (step_of_moves (moves_of_step hstep).inside)]
    exact ih h

/-- **Tokens in parentheses leave as they would by themselves**, and leave alone what waits. -/
theorem run_enclosed {ts out : List Token} (h : Token.toPostfix ts = .ok out) :
    (enclosed ts).foldlM (step id) ⟨output, waiting⟩ = .ok ⟨out.reverse ++ output, waiting⟩ := by
  obtain ⟨yard, hrun, hdepth, rfl⟩ := toPostfix_eq_ok_iff.1 h
  have hopen : step id ⟨output, waiting⟩ .openParen = .ok (inside {} output waiting) := rfl
  have hne : ∀ t ∈ yard.waiting, t ≠ .openParen := by
    rintro t ht rfl
    exact List.count_eq_zero.1 hdepth ht
  have hclose : step id (yard.inside output waiting) .closeParen =
      .ok ⟨yard.waiting.reverse ++ (yard.output ++ output), waiting⟩ :=
    step_of_moves (.closeParen hne)
  rw [enclosed, foldlM_cons_of_ok hopen, foldlM_append_of_ok (run_inside hrun),
    foldlM_cons_of_ok hclose, List.reverse_append, List.reverse_reverse, List.append_assoc]
  rfl

end

end Yard

/-! ## Postfix order -/

section

variable {ts us out out' : List Token}

theorem toPostfix_enclosed (h : Token.toPostfix ts = .ok out) :
    Token.toPostfix (enclosed ts) = .ok out :=
  toPostfix_eq_ok_iff.2 ⟨⟨out.reverse ++ [], []⟩, Yard.run_enclosed h, rfl, by simp⟩

theorem toPostfix_unary (op : UnaryOp) (h : Token.toPostfix ts = .ok out) :
    Token.toPostfix (.operator (.unary op) :: enclosed ts) =
      .ok (out ++ [.operator (.unary op)]) := by
  refine toPostfix_eq_ok_iff.2 ⟨⟨out.reverse ++ [], [.operator (.unary op)]⟩, ?_, rfl, by simp⟩
  have hop : Yard.step id ⟨[], []⟩ (.operator (.unary op)) =
      .ok ⟨[], [.operator (.unary op)]⟩ := rfl
  exact (foldlM_cons_of_ok hop).trans (Yard.run_enclosed h)

theorem toPostfix_binary (op : BinaryOp) (h : Token.toPostfix ts = .ok out)
    (h' : Token.toPostfix us = .ok out') :
    Token.toPostfix (enclosed ts ++ .operator (.binary op) :: enclosed us) =
      .ok (out ++ out' ++ [.operator (.binary op)]) := by
  refine toPostfix_eq_ok_iff.2
    ⟨⟨out'.reverse ++ (out.reverse ++ []), [.operator (.binary op)]⟩, ?_, rfl, by simp⟩
  have hop : Yard.step id ⟨out.reverse ++ [], []⟩ (.operator (.binary op)) =
      .ok ⟨out.reverse ++ [], [.operator (.binary op)]⟩ := rfl
  rw [foldlM_append_of_ok (Yard.run_enclosed h), foldlM_cons_of_ok hop, Yard.run_enclosed h']

end

end Formula
