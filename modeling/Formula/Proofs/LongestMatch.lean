import Formula.Proofs.Spelling

/-!
# Longest tokens

The tokens of a text can be told without a scanner: blanks are skipped, and the rest begins with the
longest token that fits.

* `Longest`: the longest beginning of a text that has a shape; `exists_longest`,
  `Longest.not_grows`.
* `FirstToken`: the token that a text begins with, and how it is spelled.
* `Lexed`: all tokens of a text, or its first character that no token begins with.
* `Scanner.run_firstToken`, **`Scanner.run_lexed`**: the scanner finds the same tokens and the same
  error.
* `exists_firstToken`, `exists_lexed`: every text has its tokens or its error.
* **`scan_eq_iff_lexed`**: scanning a text is telling its longest tokens.
-/

namespace Formula

open Numeral (IsLiteral)

/-! ## The longest beginning -/

/-- The word is the longest beginning of the characters that has the shape. -/
structure Longest (shape : List Char → Prop) (cs word : List Char) : Prop where
  begins : word <+: cs
  shaped : shape word
  longest : ∀ other, other <+: cs → shape other → other.length ≤ word.length

section

variable {shape : List Char → Prop} {cs word : List Char}

theorem exists_longest {word : List Char} (hbegins : word <+: cs) (hshape : shape word) :
    ∃ longest, Longest shape cs longest := by
  by_cases hlongest : ∀ other, other <+: cs → shape other → other.length ≤ word.length
  · exact ⟨word, hbegins, hshape, hlongest⟩
  · push Not at hlongest
    obtain ⟨other, hother, hshape', hlt⟩ := hlongest
    -- a longer beginning leaves fewer characters behind it, which ends the search
    have hle := hother.length_le
    exact exists_longest hother hshape'
termination_by cs.length - word.length

theorem exists_longest_cons {c : Char} {rest : List Char} (hone : shape [c]) (hnil : ¬ shape []) :
    ∃ word rest', c :: rest = word ++ rest' ∧ word ≠ [] ∧ Longest shape (c :: rest) word := by
  have hbegins : [c] <+: c :: rest := ⟨rest, rfl⟩
  obtain ⟨word, hlongest⟩ := exists_longest hbegins hone
  obtain ⟨rest', heq⟩ := hlongest.begins
  refine ⟨word, rest', heq.symm, ?_, hlongest⟩
  rintro rfl
  exact hnil hlongest.shaped

theorem Longest.not_grows {c : Char} {rest : List Char}
    (h : Longest shape (word ++ c :: rest) word) : ¬ shape (word ++ [c]) := by
  intro hgrows
  have hbegins : word ++ [c] <+: word ++ c :: rest := ⟨rest, by simp⟩
  have := h.longest _ hbegins hgrows
  rw [List.length_append, List.length_singleton] at this
  omega

/-- Behind the longest beginning comes the blank at the end, or what cannot be added to it. -/
theorem Longest.exists_next {rest : List Char} (h : Longest shape (word ++ rest) word) :
    ∃ next tail, rest ++ [' '] = next :: tail ∧ (next = ' ' ∨ ¬ shape (word ++ [next])) := by
  cases rest with
  | nil => exact ⟨' ', [], rfl, .inl rfl⟩
  | cons next tail => exact ⟨next, tail ++ [' '], rfl, .inr h.not_grows⟩

end

/-! ## The rule -/

/-- The marks that are the same token everywhere: all but the minus sign. -/
def plainMarks : List (Char × Token) :=
  [('+', .operator (.binary .add)), ('*', .operator (.binary .multiply)),
    ('/', .operator (.binary .divide)), ('^', .operator (.binary .power)), ('(', .openParen),
    (')', .closeParen)]

/-- The words that are operators. -/
def operatorWords : List (String × Operator) :=
  [("sqrt", .unary .squareRoot), ("log", .binary .logarithm), ("sin", .unary .sine),
    ("cos", .unary .cosine), ("tan", .unary .tangent)]

/-- **The first token of a text**, and the characters that it is spelled with. What the minus sign
is depends on whether the `previous` token is the end of an operand. -/
inductive FirstToken (previous : Option Token) : List Char → List Char → Token → Prop where
  | mark {c : Char} {token : Token} (rest : List Char) (hc : (c, token) ∈ plainMarks) :
    FirstToken previous (c :: rest) [c] token
  | negate (rest : List Char) (hp : ∀ t ∈ previous, t.endsOperand = false) :
    FirstToken previous ('-' :: rest) ['-'] (.operator (.unary .negate))
  | subtract (rest : List Char) (hp : ∃ t ∈ previous, t.endsOperand = true) :
    FirstToken previous ('-' :: rest) ['-'] (.operator (.binary .subtract))
  | number {cs text : List Char} (h : Longest IsLiteral cs text) :
    FirstToken previous cs text (.number (String.ofList text))
  | keyword {cs word : List Char} {op : Operator} (h : Longest IsWord cs word)
    (hop : (String.ofList word, op) ∈ operatorWords) : FirstToken previous cs word (.operator op)
  | name {cs word : List Char} (h : Longest IsWord cs word)
    (hname : ∀ op, (String.ofList word, op) ∉ operatorWords) :
    FirstToken previous cs word (.identifier (String.ofList word))

/-- **The tokens of a text**, or its first character that no token begins with. The text stands
behind the `previous` token, and `position` characters come before it. -/
inductive Lexed : (previous : Option Token) → (position : Nat) → List Char →
    Except ScanError (List Token) → Prop where
  | nil {previous : Option Token} {position : Nat} : Lexed previous position [] (.ok [])
  | blank {previous : Option Token} {position : Nat} {c : Char} {rest : List Char}
    {result : Except ScanError (List Token)} (hc : isBlank c = true)
    (h : Lexed previous (position + 1) rest result) : Lexed previous position (c :: rest) result
  | token {previous : Option Token} {position : Nat} {spelled rest : List Char} {token : Token}
    {result : Except ScanError (List Token)}
    (ht : FirstToken previous (spelled ++ rest) spelled token)
    (h : Lexed (some token) (position + spelled.length) rest result) :
    Lexed previous position (spelled ++ rest) (result.map (token :: ·))
  | unexpected {previous : Option Token} {position : Nat} {c : Char} {rest : List Char}
    (hblank : isBlank c = false) (hmark : c ∉ marks) (hdigit : c.isDigit = false)
    (halpha : isAlphabetic c = false) :
    Lexed previous position (c :: rest) (.error (.unexpectedCharacter c position))

theorem Lexed.error {previous : Option Token} {position : Nat} {cs : List Char} {e : ScanError}
    (h : Lexed previous position cs (.error e)) : ∃ c n, e = .unexpectedCharacter c n := by
  generalize hresult : Except.error e = result at h
  induction h with
  | nil => cases hresult
  | blank _ _ ih => exact ih hresult
  | @token _ _ _ _ _ result _ _ ih =>
    cases result with
    | ok tokens => cases hresult
    | error e' =>
      cases hresult
      exact ih rfl
  | unexpected =>
    cases hresult
    exact ⟨_, _, rfl⟩

/-! ## The scanner follows the rule -/

theorem isLiteral_of_growing {pending : List Char} {hasPoint : Bool} {d : Char} {rest : List Char}
    (h : Scanner.Growing pending hasPoint) (hp : pending = d :: rest) (hd : d.isDigit = true) :
    IsLiteral pending := by
  cases h with
  | nothing => cases hp
  | whole ne h => exact .whole ne h
  | fraction ne h h' => exact .fraction ne h h'
  | word hword =>
    obtain ⟨first, letters, rfl, hfirst, -⟩ := hword
    cases hp
    rw [isDigit_of_isAlphabetic hfirst] at hd
    cases hd

namespace Scanner

section

variable {ts : List Token} {n : Nat}

theorem run_longest_literal {text rest : List Char} (h : Longest IsLiteral (text ++ rest) text) :
    run (text ++ (rest ++ [' '])) (ready ts n) =
      run (rest ++ [' ']) (ready (.number (String.ofList text) :: ts) (n + text.length)) := by
  obtain ⟨next, tail, hrest, hnext⟩ := h.exists_next
  -- a character that the number grows by would make a longer literal
  have hends (hasPoint : Bool)
      (hgrows : extendsNumber hasPoint next = true → IsLiteral (text ++ [next])) :
      extendsNumber hasPoint next = false := by
    rcases hnext with rfl | hnext
    · exact stops_blank.extendsNumber hasPoint
    · exact Bool.eq_false_iff.2 fun hext => hnext (hgrows hext)
  obtain ⟨d, digits, hcons, hd⟩ := h.shaped.exists_cons
  have hliteral {hasPoint : Bool} (hgrowing : Growing (text ++ [next]) hasPoint) :
      IsLiteral (text ++ [next]) :=
    isLiteral_of_growing hgrowing (by rw [hcons]; rfl) hd
  rw [hrest]
  cases h.shaped with
  | whole ne hdigits =>
    exact run_whole ne hdigits (hends false fun hext => hliteral (growing_whole ne hdigits hext))
  | fraction ne hdigits hplaces =>
    exact run_fraction ne hdigits hplaces
      (hends true fun hext => hliteral (growing_fraction ne hdigits hplaces hext))

theorem run_longest_word {word rest : List Char} (h : Longest IsWord (word ++ rest) word) :
    run (word ++ (rest ++ [' '])) (ready ts n) =
      run (rest ++ [' ']) (ready (wordToken word :: ts) (n + word.length)) := by
  obtain ⟨next, tail, hrest, hnext⟩ := h.exists_next
  have hends : extendsWord next = false := by
    rcases hnext with rfl | hnext
    · exact stops_blank.1
    · exact Bool.eq_false_iff.2 fun hext => hnext (h.shaped.snoc hext)
  rw [hrest]
  exact run_word h.shaped hends

theorem wordToken_of_mem {word : List Char} {op : Operator}
    (h : (String.ofList word, op) ∈ operatorWords) : wordToken word = .operator op := by
  have hreserved : ∀ entry ∈ operatorWords,
      Token.reserved? entry.1 = some (.operator entry.2) := by decide
  rw [wordToken, hreserved _ h]
  rfl

theorem wordToken_of_not_mem {word : List Char} (hword : IsWord word)
    (h : ∀ op, (String.ofList word, op) ∉ operatorWords) :
    wordToken word = .identifier (String.ofList word) := by
  have hkeywords : keywords = operatorWords.map Prod.fst := rfl
  have hname : IsName (String.ofList word) := by
    refine ⟨by rwa [String.toList_ofList], fun hmem => ?_⟩
    rw [hkeywords, List.mem_map] at hmem
    obtain ⟨⟨other, op⟩, hmem, rfl⟩ := hmem
    exact h op hmem
  have htoken := wordToken_of_isName hname
  rwa [String.toList_ofList] at htoken

/-- **The scanner finds the first token** and goes on behind it. -/
theorem run_firstToken {cs spelled rest : List Char} {token : Token}
    (h : FirstToken ts.head? cs spelled token) (hcs : cs = spelled ++ rest) :
    run (cs ++ [' ']) (ready ts n) =
      run (rest ++ [' ']) (ready (token :: ts) (n + spelled.length)) := by
  cases h with
  | @mark c token _ hc =>
    cases hcs
    have hmarks : ∀ entry ∈ plainMarks, mark? entry.1 = some entry.2 := by decide
    have hsame : ∀ entry ∈ plainMarks, entry.2 ≠ .operator (.binary .subtract) := by decide
    have htoken : markToken token ts.head? = token := by
      unfold markToken
      split <;> first | exact absurd rfl (hsame _ hc) | rfl
    rw [List.cons_append, run_mark (hmarks _ hc), htoken]
    rfl
  | negate _ hp =>
    cases hcs
    exact run_negate hp
  | subtract _ hp =>
    cases hcs
    obtain ⟨t, ht, hends⟩ := hp
    have hmark : mark? '-' = some (.operator (.binary .subtract)) := rfl
    rw [List.cons_append, run_mark hmark, Option.mem_def.1 ht, markToken_binary .subtract hends]
    rfl
  | number h =>
    subst hcs
    rw [List.append_assoc]
    exact run_longest_literal h
  | keyword h hop =>
    subst hcs
    rw [List.append_assoc, run_longest_word h, wordToken_of_mem hop]
  | name h hname =>
    subst hcs
    rw [List.append_assoc, run_longest_word h, wordToken_of_not_mem h.shaped hname]

/-- The tokens that a scanner finds, in order. -/
def found (result : Except ScanError Scanner) : Except ScanError (List Token) :=
  result.map fun s => s.tokens.reverse

/-- **The scanner finds the tokens and the error that the rule tells.** -/
theorem run_lexed {previous : Option Token} {cs : List Char}
    {result : Except ScanError (List Token)}
    (h : Lexed previous n cs result) (hprevious : ts.head? = previous) :
    found (run (cs ++ [' ']) (ready ts n)) = result.map (ts.reverse ++ ·) := by
  induction h generalizing ts with
  | nil =>
    have hblank : isBlank ' ' = true := by decide
    rw [List.nil_append, run_blank hblank, run_nil]
    exact congrArg Except.ok (List.append_nil _).symm
  | blank hc _ ih =>
    rw [List.cons_append, run_blank hc]
    exact ih hprevious
  | @token _ _ _ _ token result ht _ ih =>
    subst hprevious
    rw [run_firstToken ht rfl, ih rfl]
    cases result with
    | error e => rfl
    | ok tokens => simp [Except.map]
  | @unexpected _ position c rest hblank hmark hdigit halpha =>
    have hlook : look (ready ts position) c = .error (.unexpectedCharacter c position) := by
      rw [look_idle rfl, mark?_eq_none hmark]
      simp only [halpha, hdigit, hblank, Bool.or_self, Bool.false_eq_true, if_false]
      rfl
    rw [List.cons_append, run_of_error hlook]
    rfl

end

end Scanner

/-! ## Every text is covered -/

section

variable (previous : Option Token) {c : Char} (rest : List Char)

theorem exists_firstToken_mark (hc : c ∈ marks) :
    ∃ token, FirstToken previous (c :: rest) [c] token := by
  have hmarks : marks.all (fun c => c == '-' || plainMarks.any (·.1 == c)) = true := by decide
  have hmark := List.all_eq_true.1 hmarks c hc
  simp only [Bool.or_eq_true, beq_iff_eq, List.any_eq_true] at hmark
  rcases hmark with rfl | ⟨⟨_, token⟩, hmem, rfl⟩
  · by_cases hp : ∃ t ∈ previous, t.endsOperand = true
    · exact ⟨_, .subtract rest hp⟩
    · push Not at hp
      exact ⟨_, .negate rest fun t ht => Bool.eq_false_iff.2 (hp t ht)⟩
  · exact ⟨token, .mark rest hmem⟩

theorem exists_firstToken_word {cs word : List Char} (h : Longest IsWord cs word) :
    ∃ token, FirstToken previous cs word token := by
  by_cases hop : ∃ op, (String.ofList word, op) ∈ operatorWords
  · obtain ⟨op, hop⟩ := hop
    exact ⟨_, .keyword h hop⟩
  · exact ⟨_, .name h (not_exists.1 hop)⟩

theorem exists_firstToken (hc : c ∈ marks ∨ c.isDigit = true ∨ isAlphabetic c = true) :
    ∃ spelled rest' token, c :: rest = spelled ++ rest' ∧ spelled ≠ [] ∧
      FirstToken previous (c :: rest) spelled token := by
  rcases hc with hc | hc | hc
  · obtain ⟨token, ht⟩ := exists_firstToken_mark previous rest hc
    exact ⟨[c], rest, token, rfl, List.cons_ne_nil _ _, ht⟩
  · have hone : IsLiteral [c] :=
      .whole (List.cons_ne_nil c []) fun d hd => by rwa [List.mem_singleton.1 hd]
    have hnil : ¬ IsLiteral [] := fun h => by
      obtain ⟨d, digits, heq, -⟩ := h.exists_cons
      cases heq
    obtain ⟨text, rest', heq, hne, hlongest⟩ := exists_longest_cons hone hnil
    exact ⟨text, rest', _, heq, hne, .number hlongest⟩
  · have hone : IsWord [c] := ⟨c, [], rfl, hc, by simp⟩
    have hnil : ¬ IsWord [] := fun ⟨d, letters, heq, _⟩ => by cases heq
    obtain ⟨word, rest', heq, hne, hlongest⟩ := exists_longest_cons hone hnil
    obtain ⟨token, ht⟩ := exists_firstToken_word previous hlongest
    exact ⟨word, rest', token, heq, hne, ht⟩

end

theorem exists_lexed (previous : Option Token) (position : Nat) (cs : List Char) :
    ∃ result, Lexed previous position cs result := by
  match cs with
  | [] => exact ⟨_, .nil⟩
  | c :: rest =>
    by_cases hblank : isBlank c = true
    · obtain ⟨result, h⟩ := exists_lexed previous (position + 1) rest
      exact ⟨result, .blank hblank h⟩
    by_cases hc : c ∈ marks ∨ c.isDigit = true ∨ isAlphabetic c = true
    · obtain ⟨spelled, rest', token, heq, hne, ht⟩ := exists_firstToken previous rest hc
      have hlength : rest.length + 1 = spelled.length + rest'.length := by
        simpa using congrArg List.length heq
      have hpos : 0 < spelled.length := List.length_pos_iff.2 hne
      have hle : rest'.length ≤ rest.length := by omega
      obtain ⟨result, h⟩ := exists_lexed (some token) (position + spelled.length) rest'
      rw [heq] at ht ⊢
      exact ⟨_, .token ht h⟩
    · push Not at hc
      obtain ⟨hmark, hdigit, halpha⟩ := hc
      exact ⟨_, .unexpected (Bool.eq_false_iff.2 hblank) hmark (Bool.eq_false_iff.2 hdigit)
        (Bool.eq_false_iff.2 halpha)⟩
termination_by cs.length

theorem scan_of_lexed {text : String} {result : Except ScanError (List Token)}
    (h : Lexed none 0 text.toList result) : Token.scan text = result := by
  have hrun : Scanner.found (Scanner.run (text.toList ++ [' ']) (Scanner.ready [] 0)) = _ :=
    Scanner.run_lexed h rfl
  refine Eq.trans hrun ?_
  cases result <;> rfl

theorem lexed_scan (text : String) : Lexed none 0 text.toList (Token.scan text) := by
  obtain ⟨result, h⟩ := exists_lexed none 0 text.toList
  rwa [scan_of_lexed h]

/-- **Scanning a text gives its longest tokens**, one after the other from the left, or its first
character that no token begins with. -/
theorem scan_eq_iff_lexed {text : String} {result : Except ScanError (List Token)} :
    Token.scan text = result ↔ Lexed none 0 text.toList result := by
  constructor
  · rintro rfl
    exact lexed_scan text
  · exact scan_of_lexed

end Formula
