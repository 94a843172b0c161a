import Formula.Proofs.Characters
import Formula.Proofs.Literal
import Formula.Proofs.Run

/-!
# Numbers and words of a text

* `Scanner.look_idle`, `Scanner.look_number`, `Scanner.look_word`: one look, by what is pending.
* `Scanner.run_mark`, `Scanner.run_literal`, `Scanner.run_word`: a whole token in front of the rest.
* `IsWord`, `IsName`: the shape of a word, and the words that are not reserved.
* **`spelled_of_scan`**: the numbers and names among the tokens of a text have their shapes, since
  `Scanner.Sound` holds after every look.
-/

namespace Formula

open Numeral (AllDigits IsLiteral)

/-! ## Names -/

/-- An alphabetic character, followed by such characters and digits. -/
def IsWord (cs : List Char) : Prop :=
  ∃ first rest, cs = first :: rest ∧ isAlphabetic first = true ∧
    ∀ c ∈ rest, Scanner.extendsWord c = true

theorem IsWord.snoc {cs : List Char} {c : Char} (h : IsWord cs)
    (hc : Scanner.extendsWord c = true) : IsWord (cs ++ [c]) := by
  obtain ⟨first, rest, rfl, hfirst, hrest⟩ := h
  refine ⟨first, rest ++ [c], rfl, hfirst, fun d hd => ?_⟩
  rcases List.mem_append.1 hd with hd | hd
  · exact hrest d hd
  · rwa [List.mem_singleton.1 hd]

/-- The words that operators are spelled with. -/
def keywords : List String :=
  ["sqrt", "log", "sin", "cos", "tan"]

/-- A word that can stand for a variable. -/
def IsName (name : String) : Prop :=
  IsWord name.toList ∧ name ∉ keywords

theorem reserved?_eq_none {name : String} (h : IsName name) : Token.reserved? name = none := by
  obtain ⟨⟨first, rest, hname, halpha, -⟩, hne⟩ := h
  have hreserved : ∀ t ∈ Token.reserved, t.standsAlone = true ∨ t.text ∈ keywords := by decide
  rw [Option.eq_none_iff_forall_ne_some]
  intro t ht
  have htext := Token.text_of_reserved? ht
  rcases hreserved t (List.mem_of_find?_eq_some ht) with ha | hkey
  · obtain ⟨c, hc, heq⟩ := exists_mark (List.mem_of_find?_eq_some ht) ha
    rw [htext, hname] at heq
    cases heq
    rw [(kinds_of_mem_marks hc).1] at halpha
    cases halpha
  · rw [htext] at hkey
    exact hne hkey

theorem not_mem_keywords {name : String} (h : Token.reserved? name = none) : name ∉ keywords := by
  have hreserved : ∀ word ∈ keywords, Token.reserved? word ≠ none := by decide
  exact fun hmem => hreserved name hmem h

theorem keyword_of_isWord {op : Operator} (h : op.isWord = true) :
    IsWord op.symbol.toList ∧ Token.reserved? op.symbol = some (.operator op) := by
  have hletters : ∀ word ∈ keywords, word.toList ≠ [] ∧ word.toList.all isAlphabetic = true := by
    decide
  have hop : op.symbol ∈ keywords ∧ Token.reserved? op.symbol = some (.operator op) := by
    cases op with
    | unary op => cases op <;> first | decide | cases h
    | binary op => cases op <;> first | decide | cases h
  obtain ⟨ne, hword⟩ := hletters op.symbol hop.1
  obtain ⟨first, rest, hcons⟩ := List.exists_cons_of_ne_nil ne
  rw [hcons, List.all_eq_true] at hword
  refine ⟨⟨first, rest, hcons, hword first (List.mem_cons_self ..), fun c hc => ?_⟩, hop.2⟩
  rw [Scanner.extendsWord, hword c (List.mem_cons_of_mem _ hc)]
  rfl

/-- The numbers and names among tokens have their shapes. -/
def Token.Spelled : Token → Prop
  | number text => IsLiteral text.toList
  | identifier name => IsName name
  | operator _ | openParen | closeParen => True

theorem spelled_of_mem_reserved {t : Token} (h : t ∈ Token.reserved) : t.Spelled := by
  simp only [Token.reserved, List.mem_cons, List.not_mem_nil, or_false] at h
  rcases h with rfl | rfl | rfl | rfl | rfl | rfl | rfl | rfl | rfl | rfl | rfl | rfl <;> trivial

namespace Scanner

/-! ## One look -/

section

variable {s : Scanner} {c d : Char} {rest : List Char}

theorem look_idle (h : s.pending = []) : s.look c =
    match mark? c with
    | some mark => .ok (.used (s.advance.emit (markToken mark s.tokens.head?)))
    | none =>
      if isAlphabetic c || c.isDigit then .ok (.used (s.grow c))
      else if isBlank c then .ok (.used s.advance)
      else .error (.unexpectedCharacter c s.position) := by
  rw [look, h, List.nil_append]
  rfl

theorem look_number (h : s.pending = d :: rest) (hd : d.isDigit = true) : s.look c =
    if extendsNumber s.hasPoint c then
      .ok (.used { s.grow c with hasPoint := s.hasPoint || c == '.' })
    else .ok (.ended { s.emit (.number (String.ofList s.pending)) with hasPoint := false }) := by
  rw [look, reserved_append (by simp [h])]
  simp only [h, hd, if_true]

theorem look_word (h : s.pending = d :: rest) (hd : isAlphabetic d = true) : s.look c =
    if extendsWord c then .ok (.used (s.grow c))
    else .ok (.ended (s.emit (wordToken s.pending))) := by
  rw [look, reserved_append (by simp [h])]
  simp only [h, hd, isDigit_of_isAlphabetic hd, if_true, if_false, Bool.false_eq_true]

end

/-! ## Whole tokens -/

/-- The scanner with nothing pending. -/
def ready (ts : List Token) (n : Nat) : Scanner :=
  { tokens := ts, position := n }

/-- The character ends any number and any word. -/
def Stops (c : Char) : Prop :=
  extendsWord c = false ∧ c ≠ '.'

theorem stops_of_ne {c : Char} (ha : isAlphabetic c = false) (hd : c.isDigit = false)
    (hpoint : c ≠ '.') : Stops c :=
  ⟨Bool.or_eq_false_iff.2 ⟨ha, hd⟩, hpoint⟩

theorem stops_of_lt {c : Char} (h : c.toNat < 46) : Stops c := by
  have ha : isAlphabetic c = false := by
    rw [← Bool.not_eq_true]
    intro ha
    have := le_toNat_of_isAlphabetic ha
    omega
  have hd : c.isDigit = false := by
    rw [← Bool.not_eq_true]
    intro hd
    have := toNat_of_isDigit hd
    omega
  refine stops_of_ne ha hd ?_
  rintro rfl
  exact absurd h (by decide)

theorem stops_of_isBlank {c : Char} (h : isBlank c = true) : Stops c := by
  have ha : isAlphabetic c = false := by
    rw [← Bool.not_eq_true]
    intro ha
    rw [isBlank_of_isAlphabetic ha] at h
    cases h
  have hd : c.isDigit = false := by
    rw [← Bool.not_eq_true]
    intro hd
    rw [isBlank_of_isDigit hd] at h
    cases h
  refine stops_of_ne ha hd ?_
  rintro rfl
  exact absurd h (by decide)

theorem stops_of_mem_marks {c : Char} (h : c ∈ marks) : Stops c := by
  obtain ⟨ha, hd, -⟩ := kinds_of_mem_marks h
  refine stops_of_ne ha hd ?_
  rintro rfl
  exact absurd h (by decide)

theorem Stops.extendsNumber {c : Char} (h : Stops c) (hasPoint : Bool) :
    extendsNumber hasPoint c = false := by
  have hdigit : c.isDigit = false := (Bool.or_eq_false_iff.1 h.1).2
  simp [Scanner.extendsNumber, hdigit, h.2]

section

variable {c next : Char} {rest : List Char} {ts : List Token} {n : Nat}

theorem run_blank (h : isBlank c = true) :
    run (c :: rest) (ready ts n) = run rest (ready ts (n + 1)) := by
  refine run_of_used ?_
  obtain ⟨ha, hd⟩ := Bool.or_eq_false_iff.1 (stops_of_isBlank h).1
  rw [look_idle rfl, mark?_of_isBlank h]
  simp only [ha, hd, h, Bool.or_self, Bool.false_eq_true, if_true, if_false]
  rfl

theorem run_mark {mark : Token} (h : mark? c = some mark) :
    run (c :: rest) (ready ts n) = run rest (ready (markToken mark ts.head? :: ts) (n + 1)) := by
  refine run_of_used ?_
  rw [look_idle rfl, h]
  rfl

theorem run_start (h : isAlphabetic c = true ∨ c.isDigit = true) :
    run (c :: rest) (ready ts n) = run rest ⟨ts, [c], false, n + 1⟩ := by
  refine run_of_used ?_
  have hnone : mark? c = none := h.elim mark?_of_isAlphabetic mark?_of_isDigit
  rw [look_idle rfl, hnone]
  simp only [Bool.or_eq_true, h, if_true]
  rfl

theorem run_grow {cs pending : List Char} {d : Char} {hasPoint : Bool}
    (hgrow : ∀ (s : Scanner) (pending : List Char), s.pending = d :: pending →
      ∀ c ∈ cs, s.look c = .ok (.used (s.grow c))) :
    run (cs ++ rest) ⟨ts, d :: pending, hasPoint, n⟩ =
      run rest ⟨ts, d :: pending ++ cs, hasPoint, n + cs.length⟩ := by
  induction cs generalizing pending n with
  | nil => simp
  | cons c cs ih =>
    have hused := hgrow ⟨ts, d :: pending, hasPoint, n⟩ pending rfl c (List.mem_cons_self ..)
    rw [List.cons_append, run_of_used hused]
    refine (ih fun s pending hs c' h => hgrow s pending hs c' (List.mem_cons_of_mem _ h)).trans ?_
    simp [advance, Nat.add_assoc, Nat.add_comm 1]

section

variable {d : Char} {pending : List Char} {hasPoint : Bool}

theorem run_digits {digits : List Char} (hd : d.isDigit = true) (h : AllDigits digits) :
    run (digits ++ rest) ⟨ts, d :: pending, hasPoint, n⟩ =
      run rest ⟨ts, d :: pending ++ digits, hasPoint, n + digits.length⟩ := by
  refine run_grow fun s pending hs c hmem => ?_
  have hc := h c hmem
  have hpoint : (c == '.') = false := by
    rw [beq_eq_false_iff_ne]
    rintro rfl
    cases hc
  rw [look_number hs hd, extendsNumber, hc, hpoint, Bool.or_false]
  rfl

theorem run_point (hd : d.isDigit = true) :
    run ('.' :: rest) ⟨ts, d :: pending, false, n⟩ =
      run rest ⟨ts, d :: pending ++ ['.'], true, n + 1⟩ := by
  refine run_of_used ?_
  rw [look_number rfl hd]
  rfl

theorem run_letters {letters : List Char} (hd : isAlphabetic d = true)
    (h : ∀ c ∈ letters, extendsWord c = true) :
    run (letters ++ rest) ⟨ts, d :: pending, hasPoint, n⟩ =
      run rest ⟨ts, d :: pending ++ letters, hasPoint, n + letters.length⟩ := by
  refine run_grow fun s pending hs c hmem => ?_
  rw [look_word hs hd, h c hmem]
  rfl

theorem run_endNumber (hd : d.isDigit = true) (hnext : extendsNumber hasPoint next = false) :
    run (next :: rest) ⟨ts, d :: pending, hasPoint, n⟩ =
      run (next :: rest) (ready (.number (String.ofList (d :: pending)) :: ts) n) := by
  refine run_of_ended ?_
  rw [look_number rfl hd, hnext]
  rfl

theorem run_endWord (hd : isAlphabetic d = true) (hnext : extendsWord next = false) :
    run (next :: rest) ⟨ts, d :: pending, false, n⟩ =
      run (next :: rest) (ready (wordToken (d :: pending) :: ts) n) := by
  refine run_of_ended ?_
  rw [look_word rfl hd, hnext]
  rfl

end

/-- **A word ends before a character that is neither alphabetic nor a digit.** -/
theorem run_word {cs : List Char} (h : IsWord cs) (hnext : extendsWord next = false) :
    run (cs ++ next :: rest) (ready ts n) =
      run (next :: rest) (ready (wordToken cs :: ts) (n + cs.length)) := by
  obtain ⟨first, letters, rfl, hfirst, hletters⟩ := h
  rw [List.cons_append, run_start (.inl hfirst), run_letters hfirst hletters, List.cons_append,
    run_endWord hfirst hnext, List.length_cons, Nat.add_assoc, Nat.add_comm 1]
  rfl

theorem run_whole {digits : List Char} (ne : digits ≠ []) (h : AllDigits digits)
    (hnext : extendsNumber false next = false) :
    run (digits ++ next :: rest) (ready ts n) =
      run (next :: rest) (ready (.number (String.ofList digits) :: ts) (n + digits.length)) := by
  obtain ⟨first, digits, rfl⟩ := List.exists_cons_of_ne_nil ne
  have hfirst := h first (List.mem_cons_self ..)
  have hrest : AllDigits digits := fun c hc => h c (List.mem_cons_of_mem _ hc)
  rw [List.cons_append, run_start (.inr hfirst), run_digits hfirst hrest, List.cons_append,
    run_endNumber hfirst hnext, List.length_cons, Nat.add_assoc, Nat.add_comm 1]
  rfl

theorem run_fraction {digits places : List Char} (ne : digits ≠ []) (h : AllDigits digits)
    (h' : AllDigits places) (hnext : extendsNumber true next = false) :
    run (digits ++ '.' :: places ++ next :: rest) (ready ts n) =
      run (next :: rest) (ready (.number (String.ofList (digits ++ '.' :: places)) :: ts)
        (n + (digits ++ '.' :: places).length)) := by
  obtain ⟨first, digits, rfl⟩ := List.exists_cons_of_ne_nil ne
  have hfirst := h first (List.mem_cons_self ..)
  have hrest : AllDigits digits := fun c hc => h c (List.mem_cons_of_mem _ hc)
  rw [List.append_assoc, List.cons_append, List.cons_append, run_start (.inr hfirst),
    run_digits hfirst hrest, List.cons_append, run_point hfirst, List.cons_append,
    run_digits hfirst h', List.cons_append, run_endNumber hfirst hnext]
  simp [Nat.add_comm, Nat.add_left_comm]

/-- **A literal ends before a character that is neither alphabetic nor a digit nor a point.** -/
theorem run_literal {cs : List Char} (h : IsLiteral cs) (hnext : Stops next) :
    run (cs ++ next :: rest) (ready ts n) =
      run (next :: rest) (ready (.number (String.ofList cs) :: ts) (n + cs.length)) := by
  cases h with
  | whole ne h => exact run_whole ne h (hnext.extendsNumber false)
  | fraction ne h h' => exact run_fraction ne h h' (hnext.extendsNumber true)

theorem wordToken_of_isName {name : String} (h : IsName name) :
    wordToken name.toList = .identifier name := by
  rw [wordToken, String.ofList_toList, reserved?_eq_none h]
  rfl

theorem run_name {name : String} (h : IsName name) (hnext : extendsWord next = false) :
    run (name.toList ++ next :: rest) (ready ts n) =
      run (next :: rest) (ready (.identifier name :: ts) (n + name.toList.length)) := by
  rw [run_word h.1 hnext, wordToken_of_isName h]

theorem run_keyword {op : Operator} (h : op.isWord = true) (hnext : extendsWord next = false) :
    run (op.symbol.toList ++ next :: rest) (ready ts n) =
      run (next :: rest) (ready (.operator op :: ts) (n + op.symbol.toList.length)) := by
  obtain ⟨hword, hres⟩ := keyword_of_isWord h
  have htoken : wordToken op.symbol.toList = .operator op := by
    rw [wordToken, String.ofList_toList, hres]
    rfl
  rw [run_word hword hnext, htoken]

end

/-! ## What may be pending -/

/-- What is pending is nothing, a literal with or without a point, or a word. -/
inductive Growing : (pending : List Char) → (hasPoint : Bool) → Prop where
  | nothing : Growing [] false
  | whole {digits : List Char} (ne : digits ≠ []) (h : AllDigits digits) : Growing digits false
  | fraction {digits places : List Char} (ne : digits ≠ []) (h : AllDigits digits)
    (h' : AllDigits places) : Growing (digits ++ '.' :: places) true
  | word {cs : List Char} (h : IsWord cs) : Growing cs false

/-- The tokens and the pending word have their shapes. -/
structure Sound (s : Scanner) : Prop where
  spelled : ∀ t ∈ s.tokens, t.Spelled
  growing : Growing s.pending s.hasPoint

theorem sound_empty : Sound {} :=
  ⟨by simp, .nothing⟩

theorem spelled_wordToken {cs : List Char} (h : IsWord cs) : (wordToken cs).Spelled := by
  rw [wordToken]
  cases hres : Token.reserved? (String.ofList cs) with
  | some t => exact spelled_of_mem_reserved (List.mem_of_find?_eq_some hres)
  | none => exact ⟨by rwa [String.toList_ofList], not_mem_keywords hres⟩

theorem spelled_markToken {mark : Token} (h : mark.Spelled) (previous : Option Token) :
    (markToken mark previous).Spelled := by
  unfold markToken
  split <;> trivial

def Outcome.after : Outcome → Scanner
  | used s | ended s => s

section

variable {ts : List Token} {n : Nat} {c : Char} {pending : List Char} {hasPoint : Bool}
  {outcome : Outcome}

theorem Sound.cons (h : Sound ⟨ts, pending, hasPoint, n⟩) {t : Token} (ht : t.Spelled) (n' : Nat) :
    Sound (ready (t :: ts) n') := by
  refine ⟨?_, .nothing⟩
  intro u hu
  rcases List.mem_cons.1 hu with rfl | hu
  · exact ht
  · exact h.spelled u hu

theorem Sound.look_nothing (h : Sound ⟨ts, [], false, n⟩)
    (hlook : look ⟨ts, [], false, n⟩ c = .ok outcome) : outcome.after.Sound := by
  rw [look_idle rfl] at hlook
  split at hlook
  · next mark hmark =>
    cases hlook
    have hmem := List.mem_of_find?_eq_some (Option.filter_eq_some_iff.1 hmark).1
    exact h.cons (spelled_markToken (spelled_of_mem_reserved hmem) _) _
  · split at hlook
    · next hstart =>
      cases hlook
      rcases Bool.or_eq_true_iff.1 hstart with ha | hd
      · exact ⟨h.spelled, .word ⟨c, [], rfl, ha, by simp⟩⟩
      · have hdigits : AllDigits [c] := fun d hmem => by rwa [List.mem_singleton.1 hmem]
        exact ⟨h.spelled, .whole (List.cons_ne_nil c []) hdigits⟩
    · split at hlook
      · cases hlook
        exact ⟨h.spelled, .nothing⟩
      · cases hlook

theorem allDigits_snoc {digits : List Char} (h : AllDigits digits) (hc : c.isDigit = true) :
    AllDigits (digits ++ [c]) :=
  h.append fun d hmem => by rwa [List.mem_singleton.1 hmem]

theorem Sound.look_number (h : Sound ⟨ts, pending, hasPoint, n⟩) (hlit : IsLiteral pending)
    (hgrow : extendsNumber hasPoint c = true → Growing (pending ++ [c]) (hasPoint || c == '.'))
    (hlook : look ⟨ts, pending, hasPoint, n⟩ c = .ok outcome) : outcome.after.Sound := by
  obtain ⟨d, rest, rfl, hd⟩ := hlit.exists_cons
  rw [Scanner.look_number rfl hd] at hlook
  split at hlook
  · next hext =>
    cases hlook
    exact ⟨h.spelled, hgrow hext⟩
  · cases hlook
    have hspelled : (Token.number (String.ofList (d :: rest))).Spelled := by
      rwa [Token.Spelled, String.toList_ofList]
    exact h.cons hspelled n

theorem growing_whole {digits : List Char} (ne : digits ≠ []) (h : AllDigits digits)
    (hext : extendsNumber false c = true) : Growing (digits ++ [c]) (c == '.') := by
  rcases Bool.or_eq_true_iff.1 hext with hc | hc
  · have hpoint : (c == '.') = false := by
      rw [beq_eq_false_iff_ne]
      rintro rfl
      cases hc
    rw [hpoint]
    exact .whole (by simp) (allDigits_snoc h hc)
  · rw [Bool.not_false, Bool.and_true] at hc
    rw [hc, beq_iff_eq.1 hc]
    exact .fraction ne h (by simp [AllDigits])

theorem growing_fraction {digits places : List Char} (ne : digits ≠ []) (h : AllDigits digits)
    (h' : AllDigits places) (hext : extendsNumber true c = true) :
    Growing ((digits ++ '.' :: places) ++ [c]) true := by
  have hc : c.isDigit = true := by simpa [extendsNumber] using hext
  rw [List.append_assoc]
  exact .fraction ne h (allDigits_snoc h' hc)

theorem Sound.look_word (h : Sound ⟨ts, pending, false, n⟩) (hword : IsWord pending)
    (hlook : look ⟨ts, pending, false, n⟩ c = .ok outcome) : outcome.after.Sound := by
  have ⟨d, rest, hpending, hd, _⟩ := hword
  rw [Scanner.look_word hpending hd] at hlook
  split at hlook
  · next hext =>
    cases hlook
    exact ⟨h.spelled, .word (hword.snoc hext)⟩
  · cases hlook
    exact h.cons (spelled_wordToken hword) n

end

/-- **One look keeps all shapes.** -/
theorem Sound.look {s : Scanner} (h : Sound s) {c : Char} {outcome : Outcome}
    (hlook : s.look c = .ok outcome) : outcome.after.Sound := by
  obtain ⟨ts, pending, hasPoint, n⟩ := s
  cases h.growing with
  | nothing => exact h.look_nothing hlook
  | whole ne hd => exact h.look_number (.whole ne hd) (growing_whole ne hd) hlook
  | fraction ne hd hd' =>
    exact h.look_number (.fraction ne hd hd') (growing_fraction ne hd hd') hlook
  | word hword => exact h.look_word hword hlook

theorem run_induction {p : Scanner → Prop}
    (hp : ∀ (s : Scanner) (c : Char) (outcome : Outcome), p s → s.look c = .ok outcome →
      p outcome.after)
    {cs : List Char} {s s' : Scanner} (h : p s) (hrun : run cs s = .ok s') : p s' := by
  induction cs, s using run.induct with
  | case1 s =>
    rw [run_nil] at hrun
    cases hrun
    exact h
  | case2 s c rest e hlook =>
    rw [run_of_error hlook] at hrun
    cases hrun
  | case3 s c rest after hlook ih =>
    rw [run_of_used hlook] at hrun
    exact ih (hp s c _ h hlook) hrun
  | case4 s c rest after hlook ih =>
    rw [run_of_ended hlook] at hrun
    exact ih (hp s c _ h hlook) hrun

theorem sound_run {cs : List Char} {s : Scanner} (hrun : run cs {} = .ok s) : s.Sound :=
  run_induction (fun _ _ _ hs hlook => hs.look hlook) sound_empty hrun

end Scanner

theorem scan_eq_ok_iff {text : String} {ts : List Token} :
    Token.scan text = .ok ts ↔
      ∃ s, Scanner.run (text.toList ++ [' ']) {} = .ok s ∧ s.tokens.reverse = ts := by
  rw [Token.scan, map_eq_ok_iff]

/-- The blank added at the end of a text only ends its last word. -/
theorem scan_of_run {text : String} {ts : List Token} {n : Nat}
    (h : Scanner.run (text.toList ++ [' ']) {} = Scanner.run [' '] (Scanner.ready ts n)) :
    Token.scan text = .ok ts.reverse := by
  rw [Scanner.run_blank (by decide), Scanner.run_nil] at h
  exact scan_eq_ok_iff.2 ⟨_, h, rfl⟩

/-- **The numbers and names among the tokens of a text have their shapes.** -/
theorem spelled_of_scan {text : String} {ts : List Token} (h : Token.scan text = .ok ts) :
    ∀ t ∈ ts, t.Spelled := by
  obtain ⟨s, hrun, rfl⟩ := scan_eq_ok_iff.1 h
  intro t ht
  exact (Scanner.sound_run hrun).spelled t (List.mem_reverse.1 ht)

end Formula
