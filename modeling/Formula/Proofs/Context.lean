import Formula.Proofs.Spelling

/-!
# Texts in front of other texts

A text is split into the same tokens inside a longer text, if an operand is expected before it and
no number or word goes on behind it.

* `Scanner.behind`: the scanner in the same state, with more found before.
* `Scanner.look_behind`, **`Scanner.run_behind`**: what was found before changes nothing.
* `Scanner.flush`, `Scanner.run_flush`: what is pending ends before a character that stops it.
* `Scanner.run_end`: so it does before the blank at the end of a text.
* **`Scanner.run_text`**: a text in front of the rest; `Scanner.run_enclosed`: the same in
  parentheses.
-/

namespace Formula

open Numeral (IsLiteral)

namespace Scanner

/-! ## What was found before -/

/-- The scanner with `ts` found before its own tokens, and so many more characters used up. -/
def behind (s : Scanner) (ts : List Token) (n : Nat) : Scanner :=
  { s with tokens := s.tokens ++ ts, position := s.position + n }

/-- The outcome with `ts` found before, and so many more characters used up. -/
def Outcome.behind (outcome : Outcome) (ts : List Token) (n : Nat) : Outcome :=
  match outcome with
  | used after => .used (after.behind ts n)
  | ended after => .ended (after.behind ts n)

section

variable {ts : List Token} {n : Nat} {s s' : Scanner}

theorem advance_behind : (s.behind ts n).advance = s.advance.behind ts n := by
  simp only [behind, advance, Nat.add_right_comm]

theorem grow_behind (c : Char) : (s.behind ts n).grow c = (s.grow c).behind ts n := by
  unfold grow
  rw [advance_behind]
  rfl

theorem markToken_of_expecting (h : Expecting ts) (mark : Token) :
    markToken mark ts.head? = markToken mark none := by
  cases ts with
  | nil => rfl
  | cons t ts =>
    have ht := h t rfl
    cases t with
    | number | identifier | closeParen => cases ht
    | operator | openParen =>
      unfold markToken
      split <;> simp_all

theorem markToken_behind (h : Expecting ts) (mark : Token) :
    markToken mark (s.behind ts n).tokens.head? = markToken mark s.tokens.head? := by
  unfold behind
  cases s.tokens with
  | nil => exact markToken_of_expecting h mark
  | cons t us => rfl

/-- **A look does the same behind tokens that expect an operand.** -/
theorem look_behind (h : Expecting ts) {c : Char} {outcome : Outcome}
    (hlook : s.look c = .ok outcome) : (s.behind ts n).look c = .ok (outcome.behind ts n) := by
  have hpending : (s.behind ts n).pending = s.pending := rfl
  have hpoint : (s.behind ts n).hasPoint = s.hasPoint := rfl
  unfold look at hlook ⊢
  simp only [hpending, hpoint, advance_behind, grow_behind, markToken_behind h]
  cases hmark : (Token.reserved? (String.ofList (s.pending ++ [c]))).filter Token.standsAlone with
  | some mark =>
    rw [hmark] at hlook
    cases hlook
    rfl
  | none =>
    rw [hmark] at hlook
    cases hs : s.pending with
    | nil =>
      simp only [hs] at hlook ⊢
      split_ifs at hlook ⊢ <;> cases hlook <;> rfl
    | cons first rest =>
      simp only [hs] at hlook ⊢
      split_ifs at hlook ⊢ <;> cases hlook <;> rfl

theorem run_induction_back {p : List Char → Scanner → Prop} (hnil : p [] s')
    (hused : ∀ s c rest after, s.look c = .ok (.used after) → p rest after → p (c :: rest) s)
    (hended : ∀ s c rest after, s.look c = .ok (.ended after) → p (c :: rest) after →
      p (c :: rest) s)
    {cs : List Char} (hrun : run cs s = .ok s') : p cs s := by
  induction cs, s using run.induct with
  | case1 s =>
    rw [run_nil] at hrun
    cases hrun
    exact hnil
  | case2 s c rest e hlook =>
    rw [run_of_error hlook] at hrun
    cases hrun
  | case3 s c rest after hlook ih =>
    rw [run_of_used hlook] at hrun
    exact hused s c rest after hlook (ih hrun)
  | case4 s c rest after hlook ih =>
    rw [run_of_ended hlook] at hrun
    exact hended s c rest after hlook (ih hrun)

/-- **A run does the same behind tokens that expect an operand.** -/
theorem run_behind (h : Expecting ts) {cs : List Char} (hrun : run cs s = .ok s') :
    run cs (s.behind ts n) = .ok (s'.behind ts n) := by
  refine run_induction_back (p := fun cs s => run cs (s.behind ts n) = .ok (s'.behind ts n))
    (run_nil _) ?_ ?_ hrun
  · intro s c rest after hlook ih
    rw [run_of_used (look_behind h hlook)]
    exact ih
  · intro s c rest after hlook ih
    rw [run_of_ended (look_behind h hlook)]
    exact ih

/-! ## One text after another -/

theorem run_append (cs ds : List Char) (s : Scanner) : run (cs ++ ds) s = run cs s >>= run ds := by
  induction cs, s using run.induct with
  | case1 s =>
    rw [run_nil]
    rfl
  | case2 s c rest e hlook =>
    rw [List.cons_append, run_of_error hlook, run_of_error hlook]
    rfl
  | case3 s c rest after hlook ih =>
    rw [List.cons_append, run_of_used hlook, run_of_used hlook, ih]
  | case4 s c rest after hlook ih =>
    rw [List.cons_append, run_of_ended hlook, run_of_ended hlook]
    exact ih

theorem position_look {c : Char} {outcome : Outcome} (hlook : s.look c = .ok outcome) :
    match outcome with
    | .used after => after.position = s.position + 1
    | .ended after => after.position = s.position := by
  unfold look at hlook
  split at hlook
  · cases hlook
    rfl
  · split at hlook <;> split_ifs at hlook <;> cases hlook <;> rfl

theorem position_run {cs : List Char} (hrun : run cs s = .ok s') :
    s'.position = s.position + cs.length := by
  refine run_induction_back (p := fun cs s => s'.position = s.position + cs.length) rfl ?_ ?_ hrun
  · intro s c rest after hlook ih
    have hposition := position_look hlook
    rw [ih, hposition, List.length_cons, Nat.add_assoc, Nat.add_comm 1]
  · intro s c rest after hlook ih
    have hposition := position_look hlook
    rw [ih, hposition]

/-! ## The end of a text -/

/-- The token that is pending, if any. -/
def pendingToken (pending : List Char) : List Token :=
  match pending with
  | [] => []
  | first :: _ =>
    if first.isDigit then [.number (String.ofList pending)] else [wordToken pending]

/-- The scanner when what is pending has become a token. -/
def flush (s : Scanner) : Scanner :=
  ready (pendingToken s.pending ++ s.tokens) s.position

theorem flush_behind : (s.behind ts n).flush = s.flush.behind ts n := by
  simp only [flush, behind, ready, List.append_assoc]

theorem flush_of_number {pending : List Char} {hasPoint : Bool} (h : IsLiteral pending) :
    flush ⟨ts, pending, hasPoint, n⟩ = ready (.number (String.ofList pending) :: ts) n := by
  obtain ⟨d, rest, rfl, hd⟩ := h.exists_cons
  simp only [flush, pendingToken, hd, if_true]
  rfl

theorem flush_of_word {pending : List Char} {hasPoint : Bool} (h : IsWord pending) :
    flush ⟨ts, pending, hasPoint, n⟩ = ready (wordToken pending :: ts) n := by
  obtain ⟨d, rest, rfl, hd, -⟩ := h
  simp only [flush, pendingToken, isDigit_of_isAlphabetic hd, Bool.false_eq_true, if_false]
  rfl

theorem run_flush (h : Growing s.pending s.hasPoint) {next : Char} (hnext : Stops next)
    (rest : List Char) : run (next :: rest) s = run (next :: rest) s.flush := by
  obtain ⟨us, pending, hasPoint, m⟩ := s
  have hnumber (hlit : IsLiteral pending) : run (next :: rest) ⟨us, pending, hasPoint, m⟩ =
      run (next :: rest) (flush ⟨us, pending, hasPoint, m⟩) := by
    rw [flush_of_number hlit]
    obtain ⟨d, digits, rfl, hd⟩ := hlit.exists_cons
    exact run_endNumber hd (hnext.extendsNumber hasPoint)
  cases h with
  | nothing => rfl
  | whole ne hd => exact hnumber (.whole ne hd)
  | fraction ne hd hd' => exact hnumber (.fraction ne hd hd')
  | word hword =>
    rw [flush_of_word hword]
    obtain ⟨d, letters, rfl, hd, -⟩ := hword
    exact run_endWord hd hnext.1

theorem run_end (h : s.Sound) : run [' '] s = .ok s.flush.advance := by
  rw [run_flush h.growing stops_blank]
  exact (run_blank (by decide)).trans (run_nil _)

end

end Scanner

theorem scan_eq_ok_iff_flush {text : String} {ts : List Token} :
    Token.scan text = .ok ts ↔
      ∃ s, Scanner.run text.toList {} = .ok s ∧ s.flush.tokens.reverse = ts := by
  rw [scan_eq_ok_iff, Scanner.run_append]
  cases hrun : Scanner.run text.toList {} with
  | error e => simp
  | ok s => simp [Scanner.run_end (Scanner.sound_run hrun), Scanner.advance]

namespace Scanner

variable {text : String} {ts us : List Token} {n : Nat} {next : Char} {rest : List Char}

/-- **A text in front of a character that stops its last word**, where an operand is expected, is
split into the tokens that it is split into by itself. -/
theorem run_text (h : Token.scan text = .ok ts) (hus : Expecting us) (hnext : Stops next) :
    run (text.toList ++ next :: rest) (ready us n) =
      run (next :: rest) (ready (ts.reverse ++ us) (n + text.toList.length)) := by
  obtain ⟨s, hrun, rfl⟩ := scan_eq_ok_iff_flush.1 h
  -- the text begins as if it stood alone, with `us` found before it
  have hstart : ready us n = behind {} us n := by
    rw [behind, Nat.zero_add]
    rfl
  have hgrowing : Growing (s.behind us n).pending (s.behind us n).hasPoint :=
    (sound_run hrun).growing
  have hend : (s.behind us n).flush = ready (s.flush.tokens ++ us) (n + text.toList.length) := by
    rw [flush_behind, behind, flush, ready, position_run hrun]
    simp [ready, Nat.add_comm]
  rw [run_append, hstart, run_behind hus hrun, ok_bind, run_flush hgrowing hnext, hend,
    List.reverse_reverse]

theorem run_enclosed (h : Token.scan text = .ok ts) :
    run ('(' :: (text.toList ++ ')' :: rest)) (ready us n) =
      run rest (ready (.closeParen :: (ts.reverse ++ .openParen :: us))
        (n + text.toList.length + 2)) := by
  rw [run_openParen, run_text h (expecting_openParen us) stops_closeParen, run_closeParen,
    Nat.add_right_comm n 1]

end Scanner

end Formula
