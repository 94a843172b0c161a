import Formula.Proofs.Context
import Mathlib.Logic.Relation

/-!
# One look after another

A character may be looked at twice, the first time only to end what is pending. Then fewer
characters are pending afterwards, with no fewer left, so the scanner comes to an end of every text;
and what is pending has its shape before each look.

* `Scanner.Step`: one look, with the characters that are left before and after it.
* `Scanner.Step.decreases`, `Scanner.step_wellFounded`: the looks come to an end.
* `Scanner.Sound.look_error`: only a character that begins nothing fails, and only with nothing
  pending.
* `Scanner.Reached`: what the scanner comes to in a text; `Scanner.Reached.induction`,
  `Scanner.Reached.exists_end`.
* `Scanner.Growing.shape`, `Scanner.Growing.hasPoint_iff`: what is pending, and when it has its
  point.
* **`looks_of_scan`**: all of this for each text.
-/

namespace Formula

open Numeral (IsLiteral)

namespace Scanner

/-! ## One look -/

/-- **One look** of the scanner at the first of the characters that are left. -/
inductive Step : List Char × Scanner → List Char × Scanner → Prop where
  | used {c : Char} {rest : List Char} {s after : Scanner} (h : s.look c = .ok (.used after)) :
    Step (c :: rest, s) (rest, after)
  | ended {c : Char} {rest : List Char} {s after : Scanner} (h : s.look c = .ok (.ended after)) :
    Step (c :: rest, s) (c :: rest, after)

section

variable {before after : List Char × Scanner}

theorem Step.run_eq (h : Step before after) : run before.1 before.2 = run after.1 after.2 := by
  cases h with
  | used h => exact run_of_used h
  | ended h => exact run_of_ended h

theorem Step.sound (h : Step before after) (hs : before.2.Sound) : after.2.Sound := by
  cases h with
  | used h => exact hs.look h
  | ended h => exact hs.look h

theorem Step.position_add_length (h : Step before after) :
    after.2.position + after.1.length = before.2.position + before.1.length := by
  cases h with
  | @used c rest s after h =>
    have hposition : after.position = s.position + 1 := position_look h
    rw [hposition, List.length_cons, Nat.add_assoc, Nat.add_comm 1]
  | @ended c rest s after h =>
    have hposition : after.position = s.position := position_look h
    rw [hposition]

theorem Step.ends (h : Step before after) (hposition : after.2.position = before.2.position) :
    before.2.pending ≠ [] ∧ after.2.pending = [] := by
  cases h with
  | @used c rest s after h =>
    have hused : after.position = s.position + 1 := position_look h
    simp only [hused] at hposition
    omega
  | ended h => exact look_ended h

/-- **Fewer characters are left after a look, or as many are left and fewer are pending.** -/
theorem Step.decreases (h : Step before after) :
    Prod.Lex (· < ·) (· < ·) (after.1.length, after.2.pending.length)
      (before.1.length, before.2.pending.length) := by
  cases h with
  | used h => exact .left _ _ (Nat.lt_succ_self _)
  | ended h =>
    obtain ⟨hbefore, hafter⟩ := look_ended h
    refine .right _ ?_
    rw [hafter]
    exact List.length_pos_iff.2 hbefore

theorem step_wellFounded : WellFounded fun after before => Step before after := by
  have hwf : WellFounded (Prod.Lex (· < ·) (· < · : Nat → Nat → Prop)) :=
    WellFounded.prod_lex Nat.lt_wfRel.wf Nat.lt_wfRel.wf
  exact Subrelation.wf Step.decreases
    (InvImage.wf (fun state : List Char × Scanner => (state.1.length, state.2.pending.length)) hwf)

end

/-- **A look fails only at a character that begins nothing**, with nothing pending. -/
theorem Sound.look_error {s : Scanner} (h : s.Sound) {c : Char} {e : ScanError}
    (hlook : s.look c = .error e) : e = .unexpectedCharacter c s.position := by
  obtain ⟨ts, pending, hasPoint, n⟩ := s
  have hnumber (hlit : IsLiteral pending) : e = .unexpectedCharacter c n := by
    obtain ⟨d, rest, rfl, hd⟩ := hlit.exists_cons
    rw [Scanner.look_number rfl hd] at hlook
    split at hlook <;> cases hlook
  cases h.growing with
  | nothing =>
    rw [look_idle rfl] at hlook
    split at hlook
    · cases hlook
    · split_ifs at hlook
      cases hlook
      rfl
  | whole ne hd => exact hnumber (.whole ne hd)
  | fraction ne hd hd' => exact hnumber (.fraction ne hd hd')
  | word hword =>
    obtain ⟨d, rest, rfl, hd, -⟩ := hword
    rw [Scanner.look_word rfl hd] at hlook
    split at hlook <;> cases hlook

/-! ## All looks -/

/-- **The scanner comes to the state**, and `cs` are left of the text and the blank at its end. -/
def Reached (text : String) (cs : List Char) (s : Scanner) : Prop :=
  Relation.ReflTransGen Step (text.toList ++ [' '], {}) (cs, s)

theorem reached_start (text : String) : Reached text (text.toList ++ [' ']) {} :=
  .refl

section

variable {text : String} {cs : List Char} {s : Scanner}

theorem Reached.induction {p : List Char × Scanner → Prop} (h : Reached text cs s)
    (start : p (text.toList ++ [' '], {}))
    (keeps : ∀ before after, Step before after → p before → p after) : p (cs, s) := by
  refine Relation.ReflTransGen.head_induction_on
    (motive := fun state _ => p state → p (cs, s)) h id ?_ start
  intro before after hstep _ ih hp
  exact ih (keeps before after hstep hp)

theorem Reached.run_eq (h : Reached text cs s) : run (text.toList ++ [' ']) {} = run cs s :=
  h.induction (p := fun state => run _ {} = run state.1 state.2) rfl
    fun _ _ hstep heq => heq.trans hstep.run_eq

theorem Reached.sound (h : Reached text cs s) : s.Sound :=
  h.induction (p := fun state => state.2.Sound) sound_empty fun _ _ hstep => hstep.sound

theorem Reached.position_add_length (h : Reached text cs s) :
    s.position + cs.length = text.toList.length + 1 := by
  refine h.induction
    (p := fun state => state.2.position + state.1.length = text.toList.length + 1) ?_ ?_
  · rw [List.length_append, Nat.zero_add, List.length_singleton]
  · intro before after hstep hlength
    exact hstep.position_add_length.trans hlength

/-- **Wherever the scanner comes, it goes on to the end**, or to a character that begins nothing. -/
theorem Reached.exists_end (h : Reached text cs s) : ∃ cs' s', Reached text cs' s' ∧
    (cs' = [] ∨ ∃ c rest, cs' = c :: rest ∧
      s'.look c = .error (.unexpectedCharacter c s'.position)) := by
  -- a look leads to a smaller state, so the search for the last one ends
  generalize hstate : (cs, s) = state
  induction state using step_wellFounded.induction generalizing cs s with
  | _ state ih =>
    subst hstate
    cases cs with
    | nil => exact ⟨[], s, h, .inl rfl⟩
    | cons c rest =>
      cases hlook : s.look c with
      | error e =>
        obtain rfl := h.sound.look_error hlook
        exact ⟨c :: rest, s, h, .inr ⟨c, rest, rfl, hlook⟩⟩
      | ok outcome =>
        cases outcome with
        | used after => exact ih (rest, after) (.used hlook) (h.tail (.used hlook)) rfl
        | ended after => exact ih (c :: rest, after) (.ended hlook) (h.tail (.ended hlook)) rfl

theorem Reached.pending_eq_nil (h : Reached text [] s) : s.pending = [] := by
  have hrun := h.run_eq
  rw [run_nil, run_append] at hrun
  obtain ⟨before, hbefore, hend⟩ := bind_eq_ok_iff.1 hrun
  rw [run_end (sound_run hbefore)] at hend
  cases hend
  rfl

end

/-! ## What is pending -/

section

variable {pending : List Char} {hasPoint : Bool}

theorem Growing.shape (h : Growing pending hasPoint) :
    pending = [] ∨ IsLiteral pending ∨ IsWord pending := by
  cases h with
  | nothing => exact .inl rfl
  | whole ne hd => exact .inr (.inl (.whole ne hd))
  | fraction ne hd hd' => exact .inr (.inl (.fraction ne hd hd'))
  | word hword => exact .inr (.inr hword)

theorem not_isLiteral_of_isWord (h : IsWord pending) : ¬ IsLiteral pending := by
  intro hlit
  obtain ⟨first, rest, rfl, hfirst, -⟩ := h
  obtain ⟨d, digits, heq, hd⟩ := hlit.exists_cons
  cases heq
  exact Bool.noConfusion ((isDigit_of_isAlphabetic hfirst).symm.trans hd)

theorem Growing.hasPoint_iff (h : Growing pending hasPoint) :
    hasPoint = true ↔ IsLiteral pending ∧ '.' ∈ pending := by
  cases h with
  | nothing => simp
  | whole ne hd =>
    have hnone : '.' ∉ pending := fun hmem => Bool.noConfusion (hd '.' hmem)
    simp [hnone]
  | fraction ne hd hd' => simp [IsLiteral.fraction ne hd hd']
  | word hword => simp [not_isLiteral_of_isWord hword]

end

end Scanner

open Scanner in
/-- **Looks come to an end**, at a character that begins nothing or behind the last one. Before each
of them nothing is pending, or a literal, whose point is known, or a word. -/
theorem looks_of_scan (text : String) :
    (∀ cs s, Reached text cs s →
      (s.pending = [] ∨ IsLiteral s.pending ∨ IsWord s.pending) ∧
        (s.hasPoint = true ↔ IsLiteral s.pending ∧ '.' ∈ s.pending) ∧
        s.position + cs.length = text.toList.length + 1 ∧
        (∀ c mark,
          (Token.reserved? (String.ofList (s.pending ++ [c]))).filter Token.standsAlone =
            some mark → s.pending = []) ∧
        ∀ cs' s', Step (cs, s) (cs', s') →
          (s'.position = s.position → s.pending ≠ [] ∧ s'.pending = []) ∧
            Prod.Lex (· < ·) (· < ·) (cs'.length, s'.pending.length)
              (cs.length, s.pending.length)) ∧
      (WellFounded fun after before => Step before after) ∧
      (∃ cs s, Reached text cs s ∧
        (cs = [] ∧ Token.scan text = .ok s.tokens.reverse ∨
          ∃ c rest, cs = c :: rest ∧ s.look c = .error (.unexpectedCharacter c s.position) ∧
            Token.scan text = .error (.unexpectedCharacter c s.position))) ∧
      ∀ s, Reached text [] s → s.pending = [] := by
  refine ⟨fun cs s h => ⟨h.sound.growing.shape, h.sound.growing.hasPoint_iff,
    h.position_add_length, ?_, ?_⟩, step_wellFounded, ?_, fun s h => h.pending_eq_nil⟩
  · intro c mark hmark
    by_contra hne
    rw [reserved_append hne] at hmark
    cases hmark
  · intro cs' s' hstep
    exact ⟨hstep.ends, hstep.decreases⟩
  · obtain ⟨cs, s, h, hend⟩ := (reached_start text).exists_end
    refine ⟨cs, s, h, ?_⟩
    rw [Token.scan, h.run_eq]
    rcases hend with rfl | ⟨c, rest, rfl, hlook⟩
    · rw [run_nil]
      exact .inl ⟨rfl, rfl⟩
    · rw [run_of_error hlook]
      exact .inr ⟨c, rest, rfl, hlook, rfl⟩

open Scanner in
/-- The minus sign is looked at twice, the first time to end the number. That leaves it where it
was, and nothing pending. -/
theorem looks_of_scan_minus :
    let s : Scanner := ⟨[], ['2', '.'], true, 2⟩
    let after : Scanner := ⟨[.number "2."], [], false, 2⟩
    Reached "2.-" ['-', ' '] s ∧ Step (['-', ' '], s) (['-', ' '], after) ∧
      (s.hasPoint = true ↔ IsLiteral s.pending ∧ '.' ∈ s.pending) ∧
      s.position + ['-', ' '].length = "2.-".toList.length + 1 ∧ s.pending ≠ [] ∧
        after.pending = [] ∧
      Prod.Lex (· < ·) (· < ·) (['-', ' '].length, after.pending.length)
        (['-', ' '].length, s.pending.length) := by
  intro s after
  have hdigit : ({} : Scanner).look '2' = .ok (.used ⟨[], ['2'], false, 1⟩) := by
    rw [look_idle rfl, mark?_of_isDigit rfl]
    exact if_pos (Bool.or_true _)
  have hpoint : look ⟨[], ['2'], false, 1⟩ '.' = .ok (.used s) := rfl
  have hreached : Reached "2.-" ['-', ' '] s := .tail (.tail .refl (.used hdigit)) (.used hpoint)
  have hstep : Step (['-', ' '], s) (['-', ' '], after) := .ended rfl
  obtain ⟨-, hknown, hposition, -, hsteps⟩ := (looks_of_scan "2.-").1 _ _ hreached
  obtain ⟨hends, hdecreases⟩ := hsteps _ _ hstep
  exact ⟨hreached, hstep, hknown, hposition, (hends rfl).1, (hends rfl).2, hdecreases⟩

end Formula
