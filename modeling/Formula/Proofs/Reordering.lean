import Formula.Proofs.Run
import Formula.Token.Postfix
import Mathlib.Data.List.TakeWhile

/-!
# What the yard does to tokens

* `Yard.Moves`: what one token does, as a relation; `Yard.moves_of_step`, `Yard.step_of_moves`.
* `Yard.Holds`: the yard holds each token that came in, apart from parentheses, just once;
  `Yard.Holds.moves`, `Yard.Holds.run`.
* `Closes`: parentheses match up; `Yard.closes_of_run`, `Yard.exists_run_of_closes`.
* `Yard.InTurn`: operands are in the yard in the order in which they came; `Yard.InTurn.run`.
* `Yard.finish_eq_ok_iff`, `Yard.finish_eq_error_iff`: what is left at the end.
* **`perm_of_toPostfix`**, **`closes_of_toPostfix`**, **`operands_of_toPostfix`**: what this says
  about postfix order.
-/

namespace Formula

/-- The tokens other than parentheses. -/
def bare (ts : List Token) : List Token :=
  ts.filter (·.kind != .parenthesis)

@[simp] theorem bare_append (ts us : List Token) : bare (ts ++ us) = bare ts ++ bare us :=
  List.filter_append ..

theorem bare_eq_self {ts : List Token} (h : ∀ t ∈ ts, t.kind ≠ .parenthesis) : bare ts = ts :=
  List.filter_eq_self.2 fun t ht => bne_iff_ne.2 (h t ht)

/-- The numbers and names among the tokens. -/
def operands (ts : List Token) : List Token :=
  ts.filter fun t => t.kind == .number || t.kind == .identifier

@[simp] theorem operands_append (ts us : List Token) :
    operands (ts ++ us) = operands ts ++ operands us :=
  List.filter_append ..

/-- All parentheses are closed at the end, when so many are open before. -/
def Closes : (depth : Nat) → List Token → Prop
  | depth, [] => depth = 0
  | depth, .openParen :: ts => Closes (depth + 1) ts
  | depth, .closeParen :: ts => 0 < depth ∧ Closes (depth - 1) ts
  | depth, .number _ :: ts => Closes depth ts
  | depth, .identifier _ :: ts => Closes depth ts
  | depth, .operator _ :: ts => Closes depth ts

namespace Yard

/-! ## One token -/

/-- **What one token does.** An operator and a closing parenthesis let leave what is on `left`. -/
inductive Moves : Yard Token → Token → Yard Token → Prop where
  | number {output waiting : List Token} (text : String) :
    Moves ⟨output, waiting⟩ (.number text) ⟨.number text :: output, waiting⟩
  | identifier {output waiting : List Token} (name : String) :
    Moves ⟨output, waiting⟩ (.identifier name) ⟨.identifier name :: output, waiting⟩
  | operator {output left below : List Token} (op : Operator)
    (hleft : ∀ t ∈ left, leavesFor id op t = true)
    (hbelow : ∀ t ∈ below.head?, leavesFor id op t = false) :
    Moves ⟨output, left ++ below⟩ (.operator op) ⟨left.reverse ++ output, .operator op :: below⟩
  | openParen {output waiting : List Token} :
    Moves ⟨output, waiting⟩ .openParen ⟨output, .openParen :: waiting⟩
  | closeParen {output left below : List Token} (hleft : ∀ t ∈ left, t ≠ .openParen) :
    Moves ⟨output, left ++ .openParen :: below⟩ .closeParen ⟨left.reverse ++ output, below⟩

theorem of_mem_head?_dropWhile (p : Token → Bool) {ts : List Token} {t : Token}
    (h : t ∈ (ts.dropWhile p).head?) : p t = false := by
  have := List.head?_dropWhile_not p ts
  rwa [Option.mem_def.1 h] at this

theorem ne_openParen_of_leavesFor {op : Operator} {left : List Token}
    (h : ∀ t ∈ left, leavesFor id op t = true) : ∀ t ∈ left, t ≠ .openParen := by
  rintro t ht rfl
  exact Bool.noConfusion (h _ ht)

theorem moves_of_step {yard yard' : Yard Token} {t : Token} (h : step id yard t = .ok yard') :
    Moves yard t yard' := by
  obtain ⟨output, waiting⟩ := yard
  cases t with
  | number text =>
    cases h
    exact .number text
  | identifier name =>
    cases h
    exact .identifier name
  | openParen =>
    cases h
    exact .openParen
  | operator op =>
    cases h
    have hleft : ∀ t ∈ waiting.takeWhile (leavesFor id op), leavesFor id op t = true :=
      fun t => List.mem_takeWhile_imp
    have hbelow : ∀ t ∈ (waiting.dropWhile (leavesFor id op)).head?, leavesFor id op t = false :=
      fun t => of_mem_head?_dropWhile _
    have hmoves : Moves ⟨output, _⟩ _ _ := .operator op hleft hbelow
    rwa [List.takeWhile_append_dropWhile] at hmoves
  | closeParen =>
    simp only [step, id, close] at h
    split at h
    · cases h
    · next u below hdrop =>
      cases h
      have hmem : u ∈ (waiting.dropWhile (· != .openParen)).head? := by
        rw [hdrop]
        rfl
      obtain rfl : u = .openParen :=
        bne_eq_false_iff_eq.1 (of_mem_head?_dropWhile (· != .openParen) hmem)
      have hleft : ∀ t ∈ waiting.takeWhile (· != .openParen), t ≠ .openParen :=
        fun t ht => bne_iff_ne.1 (List.mem_takeWhile_imp (p := (· != Token.openParen)) ht)
      have hmoves : Moves ⟨output, _ ++ .openParen :: below⟩ _ _ := .closeParen hleft
      rwa [← hdrop, List.takeWhile_append_dropWhile] at hmoves

theorem step_of_moves {yard yard' : Yard Token} {t : Token} (h : Moves yard t yard') :
    step id yard t = .ok yard' := by
  cases h with
  | number text => rfl
  | identifier name => rfl
  | openParen => rfl
  | @operator output left below op hleft hbelow =>
    have hstay : below.takeWhile (leavesFor id op) = [] ∧
        below.dropWhile (leavesFor id op) = below := by
      cases below with
      | nil => exact ⟨rfl, rfl⟩
      | cons t below => simp [hbelow t rfl]
    simp only [step, id, putOperator, List.takeWhile_append_of_pos hleft,
      List.dropWhile_append_of_pos hleft, hstay.1, hstay.2, List.append_nil]
  | @closeParen output left below hleft =>
    have hne : ∀ t ∈ left, (t != Token.openParen) = true := fun t ht => bne_iff_ne.2 (hleft t ht)
    simp [step, close, List.takeWhile_append_of_pos hne, List.dropWhile_append_of_pos hne]

/-! ## What a yard holds -/

/-- The yard holds each token that came in, apart from parentheses, just once. Parentheses are never
let out, and only operators and open parentheses wait. -/
structure Holds (ts : List Token) (yard : Yard Token) : Prop where
  output_bare : ∀ t ∈ yard.output, t.kind ≠ .parenthesis
  waiting_operator : ∀ t ∈ yard.waiting, t = .openParen ∨ t.kind = .operator
  perm : (yard.output ++ bare yard.waiting).Perm (bare ts)

theorem holds_nil : Holds [] {} :=
  ⟨by simp, by simp, .refl _⟩

theorem Holds.release {ts output left below : List Token} (h : Holds ts ⟨output, left ++ below⟩)
    (hleft : ∀ t ∈ left, t ≠ .openParen) : Holds ts ⟨left.reverse ++ output, below⟩ := by
  have hbare : ∀ t ∈ left, t.kind ≠ .parenthesis := by
    intro t ht
    rcases h.waiting_operator t (List.mem_append_left _ ht) with rfl | hop
    · exact absurd rfl (hleft _ ht)
    · rw [hop]
      decide
  refine ⟨?_, fun t ht => h.waiting_operator t (List.mem_append_right _ ht), ?_⟩
  · intro t ht
    rcases List.mem_append.1 ht with ht | ht
    · exact hbare t (List.mem_reverse.1 ht)
    · exact h.output_bare t ht
  · refine .trans ?_ h.perm
    rw [bare_append, bare_eq_self hbare, ← List.append_assoc]
    exact ((List.reverse_perm left).append_right _ |>.trans List.perm_append_comm).append_right _

section

variable {ts output waiting : List Token} {t : Token}

theorem Holds.pass (h : Holds ts ⟨output, waiting⟩) (ht : t.kind ≠ .parenthesis) :
    Holds (ts ++ [t]) ⟨t :: output, waiting⟩ := by
  refine ⟨?_, h.waiting_operator, ?_⟩
  · intro u hu
    rcases List.mem_cons.1 hu with rfl | hu
    · exact ht
    · exact h.output_bare u hu
  · have hbare : bare [t] = [t] := bare_eq_self (by simpa using ht)
    rw [bare_append, hbare]
    exact (h.perm.cons t).trans (List.perm_append_singleton ..).symm

theorem Holds.wait (h : Holds ts ⟨output, waiting⟩) (ht : t = .openParen ∨ t.kind = .operator) :
    Holds (ts ++ [t]) ⟨output, t :: waiting⟩ := by
  refine ⟨h.output_bare, ?_, ?_⟩
  · intro u hu
    rcases List.mem_cons.1 hu with rfl | hu
    · exact ht
    · exact h.waiting_operator u hu
  · have hcons : bare (t :: waiting) = bare [t] ++ bare waiting := bare_append [t] waiting
    rw [bare_append, hcons, ← List.append_assoc]
    refine (List.perm_append_comm.append_right _).trans ?_
    rw [List.append_assoc]
    exact (h.perm.append_left _).trans List.perm_append_comm

theorem Holds.drop (h : Holds ts ⟨output, .openParen :: waiting⟩) :
    Holds (ts ++ [.closeParen]) ⟨output, waiting⟩ := by
  refine ⟨h.output_bare, fun u hu => h.waiting_operator u (List.mem_cons_of_mem _ hu), ?_⟩
  rw [bare_append, show bare [Token.closeParen] = [] from rfl, List.append_nil]
  exact h.perm

end

theorem Holds.moves {ts : List Token} {yard yard' : Yard Token} {t : Token} (h : Holds ts yard)
    (hmoves : Moves yard t yard') : Holds (ts ++ [t]) yard' := by
  cases hmoves with
  | number text => exact h.pass (by simp [Token.kind])
  | identifier name => exact h.pass (by simp [Token.kind])
  | openParen => exact h.wait (.inl rfl)
  | operator op hleft hbelow => exact (h.release (ne_openParen_of_leavesFor hleft)).wait (.inr rfl)
  | closeParen hleft => exact (h.release hleft).drop

theorem Holds.run {ts us : List Token} {yard yard' : Yard Token} (h : Holds ts yard)
    (hrun : us.foldlM (step id) yard = .ok yard') : Holds (ts ++ us) yard' :=
  foldlM_prefix_induction (fun h hstep => h.moves (moves_of_step hstep)) h hrun

/-! ## Matching parentheses -/

/-- The number of open parentheses on the side track. -/
def depth (yard : Yard Token) : Nat :=
  yard.waiting.count .openParen

theorem count_release {left : List Token} (hleft : ∀ t ∈ left, t ≠ .openParen)
    (below : List Token) : (left ++ below).count .openParen = below.count .openParen := by
  have : left.count .openParen = 0 := List.count_eq_zero.2 fun h => hleft _ h rfl
  rw [List.count_append, this, Nat.zero_add]

theorem closes_iff_of_moves {yard yard' : Yard Token} {t : Token} {ts : List Token}
    (hmoves : Moves yard t yard') : Closes yard.depth (t :: ts) ↔ Closes yard'.depth ts := by
  cases hmoves with
  | number text => exact Iff.rfl
  | identifier name => exact Iff.rfl
  | openParen => simp [Closes, depth]
  | @operator output left below op hleft hbelow =>
    rw [Closes, depth, count_release (ne_openParen_of_leavesFor hleft)]
    simp [depth]
  | @closeParen output left below hleft =>
    rw [Closes, depth, count_release hleft]
    simp [depth]

/-- **Only a closing parenthesis with no open one before it fails.** -/
theorem step_eq_error_iff {yard : Yard Token} {t : Token} {e : ParenError} :
    step id yard t = .error e ↔ t = .closeParen ∧ yard.depth = 0 ∧ e = .unmatchedClose := by
  cases t with
  | number | identifier | openParen | operator => simp [step]
  | closeParen =>
    have hdepth : yard.depth = 0 ↔ yard.waiting.dropWhile (· != .openParen) = [] := by
      simp only [depth, List.count_eq_zero, List.dropWhile_eq_nil_iff, bne_iff_ne]
      exact ⟨fun h t ht heq => h (heq ▸ ht), fun h hmem => h _ hmem rfl⟩
    rw [hdepth]
    simp only [step, id, close]
    split
    · next hdrop => simp [hdrop, eq_comm]
    · next hdrop => simp [hdrop]

theorem closes_of_run {yard yard' : Yard Token} {ts : List Token}
    (hrun : ts.foldlM (step id) yard = .ok yard') (h : yard'.depth = 0) :
    Closes yard.depth ts := by
  induction ts generalizing yard with
  | nil =>
    cases hrun
    exact h
  | cons t ts ih =>
    obtain ⟨next, hstep, hrun⟩ := foldlM_cons_eq_ok_iff.1 hrun
    exact (closes_iff_of_moves (moves_of_step hstep)).2 (ih hrun)

theorem exists_run_of_closes {yard : Yard Token} {ts : List Token} (h : Closes yard.depth ts) :
    ∃ yard' : Yard Token, ts.foldlM (step id) yard = .ok yard' ∧ yard'.depth = 0 := by
  induction ts generalizing yard with
  | nil => exact ⟨yard, rfl, h⟩
  | cons t ts ih =>
    cases hstep : step id yard t with
    | error e =>
      obtain ⟨rfl, hdepth, -⟩ := step_eq_error_iff.1 hstep
      rw [hdepth] at h
      exact absurd h.1 (Nat.lt_irrefl 0)
    | ok next =>
      obtain ⟨yard', hrun, hdepth⟩ := ih ((closes_iff_of_moves (moves_of_step hstep)).1 h)
      exact ⟨yard', (foldlM_cons_of_ok hstep).trans hrun, hdepth⟩

/-! ## Operands in turn -/

/-- No operand waits, and those that have left did so in the order in which they came. -/
structure InTurn (ts : List Token) (yard : Yard Token) : Prop where
  waiting : operands yard.waiting = []
  output : operands yard.output.reverse = operands ts

theorem inTurn_nil : InTurn [] {} :=
  ⟨rfl, rfl⟩

theorem InTurn.release {ts output left below : List Token} (h : InTurn ts ⟨output, left ++ below⟩) :
    InTurn ts ⟨left.reverse ++ output, below⟩ := by
  obtain ⟨hleft, hbelow⟩ := List.append_eq_nil_iff.1 ((operands_append ..).symm.trans h.waiting)
  refine ⟨hbelow, ?_⟩
  rw [List.reverse_append, List.reverse_reverse, operands_append, h.output, hleft, List.append_nil]

theorem InTurn.skip {ts : List Token} {yard : Yard Token} {t : Token} (h : InTurn ts yard)
    (ht : operands [t] = []) : InTurn (ts ++ [t]) yard := by
  refine ⟨h.waiting, ?_⟩
  rw [h.output, operands_append, ht, List.append_nil]

theorem InTurn.moves {ts : List Token} {yard yard' : Yard Token} {t : Token} (h : InTurn ts yard)
    (hmoves : Moves yard t yard') : InTurn (ts ++ [t]) yard' := by
  cases hmoves with
  | number text | identifier name =>
    refine ⟨h.waiting, ?_⟩
    rw [List.reverse_cons, operands_append, h.output, operands_append]
  | openParen => exact ⟨h.waiting, (h.skip rfl).output⟩
  | operator op _ _ => exact ⟨h.release.waiting, (h.release.skip rfl).output⟩
  | closeParen _ =>
    have hopen := h.release
    exact ⟨hopen.waiting, (hopen.skip rfl).output⟩

theorem InTurn.run {ts us : List Token} {yard yard' : Yard Token} (h : InTurn ts yard)
    (hrun : us.foldlM (step id) yard = .ok yard') : InTurn (ts ++ us) yard' :=
  foldlM_prefix_induction (fun h hstep => h.moves (moves_of_step hstep)) h hrun

/-! ## When all have come in -/

theorem any_openParen_iff {yard : Yard Token} :
    yard.waiting.any (id · == Token.openParen) = true ↔ yard.depth ≠ 0 := by
  simp [depth, List.count_eq_zero]

theorem finish_eq_ok_iff {yard : Yard Token} {out : List Token} :
    yard.finish id = .ok out ↔ yard.depth = 0 ∧ out = yard.output.reverse ++ yard.waiting := by
  rw [finish]
  split
  · next h =>
    have := any_openParen_iff.1 h
    simp [this]
  · next h =>
    have : yard.depth = 0 := Decidable.not_not.1 fun hne => h (any_openParen_iff.2 hne)
    simp [this, eq_comm]

theorem finish_eq_error_iff {yard : Yard Token} {e : ParenError} :
    yard.finish id = .error e ↔ yard.depth ≠ 0 ∧ e = .unclosedOpen := by
  rw [finish]
  split
  · next h =>
    have := any_openParen_iff.1 h
    simp [this, eq_comm]
  · next h =>
    have : yard.depth = 0 := Decidable.not_not.1 fun hne => h (any_openParen_iff.2 hne)
    simp [this]

end Yard

/-! ## Postfix order -/

theorem toPostfix_eq_ok_iff {ts out : List Token} :
    Token.toPostfix ts = .ok out ↔ ∃ yard : Yard Token, ts.foldlM (Yard.step id) {} = .ok yard ∧
      yard.depth = 0 ∧ out = yard.output.reverse ++ yard.waiting := by
  rw [Token.toPostfix, Yard.order, bind_eq_ok_iff]
  simp only [Yard.finish_eq_ok_iff]

/-- **Postfix order holds the same tokens**, without the parentheses. -/
theorem perm_of_toPostfix {ts out : List Token} (h : Token.toPostfix ts = .ok out) :
    out.Perm (bare ts) := by
  obtain ⟨yard, hrun, hdepth, rfl⟩ := toPostfix_eq_ok_iff.1 h
  have hholds : Yard.Holds ts yard := Yard.holds_nil.run hrun
  have hbare : bare yard.waiting = yard.waiting := bare_eq_self fun t ht => by
    rcases hholds.waiting_operator t ht with rfl | hop
    · exact absurd ht (List.count_eq_zero.1 hdepth)
    · rw [hop]
      decide
  have := hholds.perm
  rw [hbare] at this
  exact ((List.reverse_perm _).append_right _).trans this

theorem count_eq_of_toPostfix {ts out : List Token} (h : Token.toPostfix ts = .ok out) {t : Token}
    (ht : t.kind ≠ .parenthesis) : out.count t = ts.count t := by
  rw [(perm_of_toPostfix h).count_eq, bare, List.count_filter]
  exact bne_iff_ne.2 ht

theorem mem_of_toPostfix {ts out : List Token} (h : Token.toPostfix ts = .ok out) {t : Token}
    (ht : t ∈ out) : t ∈ ts :=
  (List.mem_filter.1 ((perm_of_toPostfix h).mem_iff.1 ht)).1

theorem kind_of_toPostfix {ts out : List Token} (h : Token.toPostfix ts = .ok out) :
    ∀ t ∈ out, t.kind ≠ .parenthesis := by
  intro t ht
  have hmem := (perm_of_toPostfix h).mem_iff.1 ht
  exact bne_iff_ne.1 (List.mem_filter.1 hmem).2

/-- **Postfix order keeps the order of the operands.** Only operators move. -/
theorem operands_of_toPostfix {ts out : List Token} (h : Token.toPostfix ts = .ok out) :
    operands out = operands ts := by
  obtain ⟨yard, hrun, -, rfl⟩ := toPostfix_eq_ok_iff.1 h
  obtain ⟨hwaiting, houtput⟩ : Yard.InTurn ts yard := Yard.inTurn_nil.run hrun
  rw [operands_append, houtput, hwaiting, List.append_nil]

/-- **Tokens are put into postfix order only if their parentheses match.** -/
theorem closes_of_toPostfix {ts out : List Token} (h : Token.toPostfix ts = .ok out) :
    Closes 0 ts := by
  obtain ⟨yard, hrun, hdepth, -⟩ := toPostfix_eq_ok_iff.1 h
  exact Yard.closes_of_run hrun hdepth

theorem exists_toPostfix_of_closes {ts : List Token} (h : Closes 0 ts) :
    ∃ out, Token.toPostfix ts = .ok out := by
  have hstart : Yard.depth {} = 0 := rfl
  obtain ⟨yard, hrun, hdepth⟩ := Yard.exists_run_of_closes (hstart ▸ h)
  exact ⟨_, toPostfix_eq_ok_iff.2 ⟨yard, hrun, hdepth, rfl⟩⟩

end Formula
