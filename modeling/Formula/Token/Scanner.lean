import Formula.Failure
import Formula.Token
import Formula.Text.Alphabetic
import Formula.Text.Blank

/-!
# The scanner

A text is split into tokens from left to right. The scanner holds the tokens found so far and a
pending word, and looks at one character at a time. Marks are tokens by themselves. Numbers and
words grow as long as they can; the character that ends one is looked at again with nothing pending.

* `Scanner`: the state between two looks at a character.
* `Scanner.look`: one look.
* `Scanner.run`: looks until all characters are used up. `Scanner.looksLeft` bounds how many it
  takes.
* **`Token.scan`**: the tokens of a text, or its first character that no token begins with.
-/

namespace Formula

/-- What the scanner holds between two looks at a character. -/
structure Scanner where
  /-- The tokens found so far, the newest first. -/
  tokens : List Token := []
  /-- The characters of the number or word that is growing. -/
  pending : List Char := []
  /-- Whether the pending number has its point already. -/
  hasPoint : Bool := false
  /-- How many characters have been used up. -/
  position : Nat := 0

namespace Scanner

/-! ## Words -/

/-- Whether a number grows by the character: a digit, or the first point. -/
def extendsNumber (hasPoint : Bool) (c : Char) : Bool :=
  c.isDigit || (c == '.' && !hasPoint)

/-- Whether a word grows by the character: an alphabetic one or a digit. -/
def extendsWord (c : Char) : Bool :=
  isAlphabetic c || c.isDigit

/-- The token that a finished word is: the operator it is reserved for, or a name. -/
def wordToken (word : List Char) : Token :=
  (Token.reserved? (String.ofList word)).getD (.identifier (String.ofList word))

/-- The token a mark is after the `previous` one. A minus sign with no operand before it negates. -/
def markToken (mark : Token) (previous : Option Token) : Token :=
  match mark, previous with
  | .operator (.binary .subtract), none
  | .operator (.binary .subtract), some (.operator _)
  | .operator (.binary .subtract), some .openParen => .operator (.unary .negate)
  | mark, _ => mark

/-! ## One look -/

/-- What a look at a character does. -/
inductive Outcome where
  /-- The character is used up. -/
  | used (after : Scanner)
  /-- The pending word ends before the character, which is still to be looked at. -/
  | ended (after : Scanner)

/-- The scanner after using up a character. -/
def advance (s : Scanner) : Scanner :=
  { s with position := s.position + 1 }

/-- The scanner after a character has joined the pending word. -/
def grow (s : Scanner) (c : Char) : Scanner :=
  { s.advance with pending := s.pending ++ [c] }

/-- The scanner after the pending word has become a token. -/
def emit (s : Scanner) (token : Token) : Scanner :=
  { s with tokens := token :: s.tokens, pending := [] }

/-- **One look at the next character.** A mark is recognised on the pending word with the character
added, so it needs an empty one. Otherwise the first pending character tells what is growing. -/
def look (s : Scanner) (next : Char) : Except ScanError Outcome :=
  match (Token.reserved? (String.ofList (s.pending ++ [next]))).filter Token.standsAlone with
  | some mark => .ok (.used (s.advance.emit (markToken mark s.tokens.head?)))
  | none =>
    match s.pending with
    | [] =>
      if isAlphabetic next || next.isDigit then .ok (.used (s.grow next))
      else if isBlank next then .ok (.used s.advance)
      else .error (.unexpectedCharacter next s.position)
    | first :: _ =>
      if first.isDigit then
        if extendsNumber s.hasPoint next then
          .ok (.used { s.grow next with hasPoint := s.hasPoint || next == '.' })
        else
          .ok (.ended { s.emit (.number (String.ofList s.pending)) with hasPoint := false })
      else if isAlphabetic first then
        if extendsWord next then .ok (.used (s.grow next))
        else .ok (.ended (s.emit (wordToken s.pending)))
      else .error (.invalidWord (String.ofList (s.pending ++ [next])))

/-- A look that leaves the character to be looked at again takes a pending word away. -/
theorem look_ended {s after : Scanner} {next : Char} (h : s.look next = .ok (.ended after)) :
    s.pending ≠ [] ∧ after.pending = [] := by
  unfold look at h
  split at h
  · simp at h
  · split at h
    · split at h <;> try split at h
      all_goals simp at h
    · next first rest heq =>
      refine ⟨by simp [heq], ?_⟩
      split at h
      · split at h <;> simp at h
        rw [← h]; rfl
      · split at h <;> try split at h
        all_goals simp at h
        rw [← h]; rfl

/-! ## The whole text -/

/-- A bound on the looks still to come: two for every character left, since a word may end before
it, and one if a word is pending. -/
def looksLeft (cs : List Char) (s : Scanner) : Nat :=
  2 * cs.length + if s.pending = [] then 0 else 1

theorem looksLeft_used (next : Char) (rest : List Char) (s after : Scanner) :
    looksLeft rest after < looksLeft (next :: rest) s := by
  simp only [looksLeft, List.length_cons]
  split <;> split <;> omega

theorem looksLeft_ended {s after : Scanner} {next : Char} (cs : List Char)
    (h : s.look next = .ok (.ended after)) : looksLeft cs after < looksLeft cs s := by
  obtain ⟨hs, ha⟩ := look_ended h
  simp [looksLeft, hs, ha]

/-- Looks at the characters one after the other until all are used up. -/
def run (cs : List Char) (s : Scanner) : Except ScanError Scanner :=
  match cs with
  | [] => .ok s
  | next :: rest =>
    match _h : s.look next with
    | .error e => .error e
    | .ok (.used after) => run rest after
    | .ok (.ended after) => run (next :: rest) after
termination_by looksLeft cs s
decreasing_by
  · exact looksLeft_used next rest s after
  · exact looksLeft_ended _ _h

@[simp] theorem run_nil (s : Scanner) : run [] s = .ok s := by
  rw [run]

theorem run_of_error {next : Char} {rest : List Char} {s : Scanner} {e : ScanError}
    (h : s.look next = .error e) : run (next :: rest) s = .error e := by
  rw [run]
  split <;> simp_all

theorem run_of_used {next : Char} {rest : List Char} {s after : Scanner}
    (h : s.look next = .ok (.used after)) : run (next :: rest) s = run rest after := by
  rw [run]
  split <;> simp_all

theorem run_of_ended {next : Char} {rest : List Char} {s after : Scanner}
    (h : s.look next = .ok (.ended after)) :
    run (next :: rest) s = run (next :: rest) after := by
  rw [run]
  split <;> simp_all

end Scanner

/-- **The tokens of a text**, in order. The blank added at the end finishes the last word. -/
def Token.scan (text : String) : Except ScanError (List Token) :=
  (Scanner.run (text.toList ++ [' ']) {}).map fun s => s.tokens.reverse

end Formula
