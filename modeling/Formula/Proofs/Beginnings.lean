import Formula.Proofs.Iterations

/-!
# Beginnings of a text

A text is scanned as its beginnings are, up to the first character that no token begins with. This
one is reported wherever the text is cut behind it, and however it goes on.

* `Scanner.unexpected_of_run`: a run fails at one of its own characters, whose place is reported.
* `exists_scan_iff`, `scan_eq_error_iff`: the blank added at the end neither fails nor helps.
* `exists_scan_of_begins`, `scan_error_of_begins`: what is good stays good when the text is cut, and
  an error stays the same when it goes on.
* **`scan_beginnings`**: an error is reported at the end of the longest beginning that is good.
-/

namespace Formula

namespace Scanner

variable {cs ds : List Char} {s : Scanner} {e : ScanError}

/-- **A run that fails does so at one of its characters**, and reports the place of it. -/
theorem unexpected_of_run (h : s.Sound) (hrun : run cs s = .error e) :
    ∃ n c, cs[n]? = some c ∧ e = .unexpectedCharacter c (s.position + n) := by
  induction cs, s using run.induct with
  | case1 s =>
    rw [run_nil] at hrun
    cases hrun
  | case2 s c rest e' hlook =>
    rw [run_of_error hlook] at hrun
    cases hrun
    exact ⟨0, c, rfl, h.look_error hlook⟩
  | case3 s c rest after hlook ih =>
    rw [run_of_used hlook] at hrun
    have hposition : after.position = s.position + 1 := position_look hlook
    obtain ⟨n, d, hd, rfl⟩ := ih (h.look hlook) hrun
    refine ⟨n + 1, d, hd, ?_⟩
    rw [hposition, Nat.add_assoc, Nat.add_comm 1]
  | case4 s c rest after hlook ih =>
    rw [run_of_ended hlook] at hrun
    have hposition : after.position = s.position := position_look hlook
    obtain ⟨n, d, hd, rfl⟩ := ih (h.look hlook) hrun
    exact ⟨n, d, hd, by rw [hposition]⟩

theorem run_error_of_begins (hbegins : cs <+: ds) (h : run cs s = .error e) :
    run ds s = .error e := by
  obtain ⟨rest, rfl⟩ := hbegins
  rw [run_append, h, error_bind]

theorem exists_run_of_begins (hbegins : cs <+: ds) {t : Scanner} (h : run ds s = .ok t) :
    ∃ t', run cs s = .ok t' := by
  obtain ⟨rest, rfl⟩ := hbegins
  rw [run_append] at h
  obtain ⟨t', ht', -⟩ := bind_eq_ok_iff.1 h
  exact ⟨t', ht'⟩

end Scanner

/-! ## Cut texts -/

section

variable {text other : String} {ts : List Token} {e : ScanError}

theorem exists_scan_iff :
    (∃ ts, Token.scan text = .ok ts) ↔ ∃ s, Scanner.run text.toList {} = .ok s := by
  simp only [scan_eq_ok_iff_flush]
  constructor
  · rintro ⟨_, s, hrun, -⟩
    exact ⟨s, hrun⟩
  · rintro ⟨s, hrun⟩
    exact ⟨_, s, hrun, rfl⟩

theorem scan_eq_error_iff : Token.scan text = .error e ↔ Scanner.run text.toList {} = .error e := by
  rw [Token.scan, Scanner.run_append]
  cases hrun : Scanner.run text.toList {} with
  | error e' => simp [Except.map]
  | ok s => simp [Scanner.run_end (Scanner.sound_run hrun), Except.map]

theorem exists_scan_of_begins (hbegins : other.toList <+: text.toList)
    (h : Token.scan text = .ok ts) : ∃ us, Token.scan other = .ok us := by
  obtain ⟨s, hrun⟩ := exists_scan_iff.1 ⟨ts, h⟩
  exact exists_scan_iff.2 (Scanner.exists_run_of_begins hbegins hrun)

theorem scan_error_of_begins (hbegins : text.toList <+: other.toList)
    (h : Token.scan text = .error e) : Token.scan other = .error e :=
  scan_eq_error_iff.2 (Scanner.run_error_of_begins hbegins (scan_eq_error_iff.1 h))

theorem unexpected_of_scan (h : Token.scan text = .error e) :
    ∃ n c, n < text.length ∧ text.toList[n]? = some c ∧ e = .unexpectedCharacter c n := by
  obtain ⟨n, c, hc, rfl⟩ := Scanner.unexpected_of_run Scanner.sound_empty (scan_eq_error_iff.1 h)
  have hlt : n < text.toList.length := (List.getElem?_eq_some_iff.1 hc).1
  rw [String.length_toList] at hlt
  exact ⟨n, c, hlt, hc, by rw [Nat.zero_add]⟩

section

variable {c : Char} {n : Nat} (h : Token.scan text = .error (.unexpectedCharacter c n))
  (hbegins : other.toList <+: text.toList)

include h hbegins

theorem exists_scan_of_length_le (hle : other.length ≤ n) : ∃ us, Token.scan other = .ok us := by
  cases hother : Token.scan other with
  | ok us => exact ⟨us, rfl⟩
  | error e =>
    -- an error of the beginning is one of the text as well, and its place is before `n`
    have hsame := (scan_error_of_begins hbegins hother).symm.trans h
    obtain ⟨m, d, hlt, -, rfl⟩ := unexpected_of_scan hother
    cases hsame
    omega

/-- **A beginning that reaches behind the place of the error fails in the same way.** If it were
good, the error would be reported further on. -/
theorem scan_error_of_lt_length (hlt : n < other.length) :
    Token.scan other = .error (.unexpectedCharacter c n) := by
  cases hother : Token.scan other with
  | error e =>
    have hsame := (scan_error_of_begins hbegins hother).symm.trans h
    cases hsame
    rfl
  | ok us =>
    obtain ⟨rest, hrest⟩ := hbegins
    obtain ⟨s, hrun⟩ := exists_scan_iff.1 ⟨us, hother⟩
    rw [scan_eq_error_iff, ← hrest, Scanner.run_append, hrun, ok_bind] at h
    obtain ⟨m, d, -, hplace⟩ := Scanner.unexpected_of_run (Scanner.sound_run hrun) h
    have hposition : s.position = 0 + other.toList.length := Scanner.position_run hrun
    rw [String.length_toList] at hposition
    cases hplace
    omega

end

end

/-- **An error is reported at the end of the longest good beginning.** Longer beginnings fail in the
same way, and so do texts that go on behind it. All beginnings of a good text are good. -/
theorem scan_beginnings (text : String) :
    (∀ c n, Token.scan text = .error (.unexpectedCharacter c n) →
      n < text.length ∧ text.toList[n]? = some c ∧
        (∀ other : String, other.toList <+: text.toList → other.length ≤ n →
          ∃ us, Token.scan other = .ok us) ∧
        (∀ other : String, other.toList <+: text.toList → n < other.length →
          Token.scan other = .error (.unexpectedCharacter c n)) ∧
        ∀ other : String, text.toList <+: other.toList →
          Token.scan other = .error (.unexpectedCharacter c n)) ∧
      ∀ ts, Token.scan text = .ok ts →
        ∀ other : String, other.toList <+: text.toList → ∃ us, Token.scan other = .ok us := by
  refine ⟨fun c n h => ?_, fun ts h other hbegins => exists_scan_of_begins hbegins h⟩
  obtain ⟨m, d, hlt, hd, hplace⟩ := unexpected_of_scan h
  cases hplace
  exact ⟨hlt, hd, fun other => exists_scan_of_length_le h, fun other => scan_error_of_lt_length h,
    fun other hbegins => scan_error_of_begins hbegins h⟩

theorem scan_beginnings_point :
    Token.scan "x-1.2.3" = .error (.unexpectedCharacter '.' 5) ∧ "x-1.2.3".toList[5]? = some '.' ∧
      (∃ us, Token.scan "x-1.2" = .ok us) ∧ (∃ us, Token.scan "x-1." = .ok us) ∧
      Token.scan "x-1.2." = .error (.unexpectedCharacter '.' 5) ∧
      Token.scan "x-1.2.3 + y" = .error (.unexpectedCharacter '.' 5) := by
  have hscan : Token.scan "x-1.2.3" = .error (.unexpectedCharacter '.' 5) := by decide +kernel
  obtain ⟨-, hchar, hshort, hlong, hextended⟩ := (scan_beginnings "x-1.2.3").1 _ _ hscan
  exact ⟨hscan, hchar, hshort "x-1.2" ⟨['.', '3'], rfl⟩ (by decide),
    hshort "x-1." ⟨['2', '.', '3'], rfl⟩ (by decide), hlong "x-1.2." ⟨['3'], rfl⟩ (by decide),
    hextended "x-1.2.3 + y" ⟨[' ', '+', ' ', 'y'], rfl⟩⟩

end Formula
