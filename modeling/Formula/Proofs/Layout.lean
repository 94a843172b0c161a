import Formula.Proofs.LongestMatch

/-!
# Tokens laid out as a text

Tokens may be written with any blanks around them, if there is one between two words. However they
are laid out, the text is split into the same tokens again; and no other tokens are found in any
text than those that can be laid out.

* `Token.spelling`, `Token.Fits`: how a token is written, and behind which other it may stand.
* `Canonical`: tokens that have their shapes and fit where they stand; `canonical_of_scan`.
* `Layout`: the tokens in order, with blanks around them; `exists_layout`.
* `Scanner.run_token`, **`Scanner.run_layout`**: what the scanner finds in a layout.
* **`scan_layout`**: the tokens of texts are the canonical ones, and those of each of their layouts.
-/

namespace Formula

/-! ## Tokens in their places -/

/-- How the token is written. Negation and subtraction are written alike. -/
def Token.spelling : Token → String
  | operator (.unary .negate) => "-"
  | t => t.text

/-- Whether the token may stand behind the `previous` one. A minus sign is a subtraction behind the
end of an operand, and a negation in all other places. -/
def Token.Fits (previous : Option Token) : Token → Prop
  | operator (.unary .negate) => ∀ t ∈ previous, t.endsOperand = false
  | operator (.binary .subtract) => ∃ t ∈ previous, t.endsOperand = true
  | _ => True

/-- Each token fits behind the one before it, the first one behind the `previous` one. -/
def Fitting (previous : Option Token) : List Token → Prop
  | [] => True
  | t :: ts => t.Fits previous ∧ Fitting (some t) ts

/-- **Tokens as they can be found in a text**: numbers and names have their shapes, and each minus
sign is what it has to be where it stands. -/
structure Canonical (ts : List Token) : Prop where
  spelled : ∀ t ∈ ts, t.Spelled
  fitting : Fitting none ts

theorem FirstToken.fits {previous : Option Token} {cs spelled : List Char} {t : Token}
    (h : FirstToken previous cs spelled t) : t.Fits previous := by
  cases h with
  | mark rest hc =>
    simp only [plainMarks, List.mem_cons, Prod.mk.injEq, List.not_mem_nil, or_false] at hc
    rcases hc with ⟨-, rfl⟩ | ⟨-, rfl⟩ | ⟨-, rfl⟩ | ⟨-, rfl⟩ | ⟨-, rfl⟩ | ⟨-, rfl⟩ <;> trivial
  | negate rest hp => exact hp
  | subtract rest hp => exact hp
  | number | name => trivial
  | keyword h hop =>
    simp only [operatorWords, List.mem_cons, Prod.mk.injEq, List.not_mem_nil, or_false] at hop
    rcases hop with ⟨-, rfl⟩ | ⟨-, rfl⟩ | ⟨-, rfl⟩ | ⟨-, rfl⟩ | ⟨-, rfl⟩ <;> trivial

theorem Lexed.fitting {previous : Option Token} {position : Nat} {cs : List Char} {ts : List Token}
    (h : Lexed previous position cs (.ok ts)) : Fitting previous ts := by
  generalize hresult : Except.ok ts = result at h
  induction h generalizing ts with
  | nil =>
    cases hresult
    trivial
  | blank _ _ ih => exact ih hresult
  | token ht _ ih =>
    obtain ⟨rest, hrest, rfl⟩ := map_eq_ok_iff.1 hresult.symm
    exact ⟨ht.fits, ih hrest.symm⟩
  | unexpected => cases hresult

theorem canonical_of_scan {text : String} {ts : List Token} (h : Token.scan text = .ok ts) :
    Canonical ts :=
  ⟨spelled_of_scan h, (h ▸ lexed_scan text : Lexed none 0 text.toList (.ok ts)).fitting⟩

/-! ## Layouts -/

def AllBlank (cs : List Char) : Prop :=
  ∀ c ∈ cs, isBlank c = true

/-- **The tokens in order, with blanks around them**, behind the `previous` token. Between two that
do not stand alone, be they numbers, names or operators of letters, there is a blank. -/
inductive Layout : (previous : Option Token) → List Token → List Char → Prop where
  | nil {previous : Option Token} {blanks : List Char} (h : AllBlank blanks) :
    Layout previous [] blanks
  | cons {previous : Option Token} {blanks cs : List Char} {t : Token} {ts : List Token}
    (h : AllBlank blanks)
    (hgap : ∀ p ∈ previous, p.standsAlone = false → t.standsAlone = false → blanks ≠ [])
    (hrest : Layout (some t) ts cs) : Layout previous (t :: ts) (blanks ++ t.spelling.toList ++ cs)

theorem exists_layout (previous : Option Token) (ts : List Token) :
    ∃ cs, Layout previous ts cs := by
  induction ts generalizing previous with
  | nil => exact ⟨[], .nil fun c hc => by cases hc⟩
  | cons t ts ih =>
    obtain ⟨cs, hcs⟩ := ih (some t)
    have hblank : AllBlank [' '] := fun c hc => by
      rw [List.mem_singleton.1 hc]
      decide
    exact ⟨_, .cons hblank (fun _ _ _ _ => List.cons_ne_nil _ _) hcs⟩

theorem exists_mark_spelling {t : Token} (h : t.standsAlone = true) :
    ∃ c ∈ marks, t.spelling.toList = [c] := by
  cases t with
  | number | identifier => cases h
  | openParen | closeParen => exact exists_mark (by decide) h
  | operator op =>
    cases op with
    | unary op =>
      cases op with
      | negate => exact ⟨'-', by decide, rfl⟩
      | squareRoot | sine | cosine | tangent => cases h
    | binary op => exact exists_mark (by cases op <;> decide) h

theorem Layout.exists_next {t : Token} {ts : List Token} {cs : List Char}
    (h : Layout (some t) ts cs) :
    ∃ next rest, cs ++ [' '] = next :: rest ∧ (t.standsAlone = false → Scanner.Stops next) := by
  have hne : cs ++ [' '] ≠ [] := by simp
  obtain ⟨next, rest, heq⟩ := List.exists_cons_of_ne_nil hne
  refine ⟨next, rest, heq, fun hword => ?_⟩
  cases h with
  | nil hblanks =>
    cases cs with
    | nil =>
      cases heq
      exact Scanner.stops_blank
    | cons c blanks =>
      cases heq
      exact Scanner.stops_of_isBlank (hblanks _ (List.mem_cons_self ..))
  | @cons _ blanks cs u ts hblanks hgap hrest =>
    cases blanks with
    | nil =>
      have halone : u.standsAlone = true := by
        by_contra hne
        exact hgap t rfl hword (Bool.eq_false_iff.2 hne) rfl
      obtain ⟨c, hc, hspelling⟩ := exists_mark_spelling halone
      rw [hspelling] at heq
      cases heq
      exact Scanner.stops_of_mem_marks hc
    | cons c blanks =>
      cases heq
      exact Scanner.stops_of_isBlank (hblanks _ (List.mem_cons_self ..))

namespace Scanner

variable {ts found : List Token} {t : Token} {n : Nat} {cs rest : List Char}

theorem run_blanks {blanks : List Char} (h : AllBlank blanks) :
    run (blanks ++ rest) (ready found n) = run rest (ready found (n + blanks.length)) := by
  induction blanks generalizing n with
  | nil => rfl
  | cons c blanks ih =>
    rw [List.cons_append, run_blank (h c (List.mem_cons_self ..)),
      ih fun d hd => h d (List.mem_cons_of_mem _ hd), List.length_cons, Nat.add_assoc,
        Nat.add_comm 1]

theorem markToken_of_fits {op : BinaryOp} {previous : Option Token}
    (h : (Token.operator (.binary op)).Fits previous) :
    markToken (.operator (.binary op)) previous = .operator (.binary op) := by
  cases op with
  | subtract =>
    obtain ⟨last, hlast, hends⟩ := h
    rw [Option.mem_def.1 hlast]
    exact markToken_binary .subtract hends
  | add | multiply | divide | power | logarithm => rfl

theorem run_operator {op : Operator} {next : Char} (hfits : (Token.operator op).Fits found.head?)
    (hnext : (Token.operator op).standsAlone = false → Stops next) :
    run ((Token.operator op).spelling.toList ++ next :: rest) (ready found n) =
      run (next :: rest) (ready (.operator op :: found)
        (n + (Token.operator op).spelling.toList.length)) := by
  cases op with
  | unary op =>
    cases op with
    | negate => exact run_negate hfits
    | squareRoot | sine | cosine | tangent => exact run_keyword rfl (hnext rfl).1
  | binary op =>
    refine run_symbol (markToken_of_fits hfits) fun hword => (hnext ?_).1
    rw [Token.standsAlone, hword]
    rfl

/-- **A token that fits is found where it is written**, if it is alone or what follows ends it. -/
theorem run_token {next : Char} (hspelled : t.Spelled) (hfits : t.Fits found.head?)
    (hnext : t.standsAlone = false → Stops next) :
    run (t.spelling.toList ++ next :: rest) (ready found n) =
      run (next :: rest) (ready (t :: found) (n + t.spelling.toList.length)) := by
  cases t with
  | number text =>
    refine (run_literal hspelled (hnext rfl)).trans ?_
    rw [String.ofList_toList]
    rfl
  | identifier name => exact run_name hspelled (hnext rfl).1
  | openParen => exact run_openParen
  | closeParen => exact run_closeParen
  | operator op => exact run_operator hfits hnext

/-- **The scanner finds the tokens in a layout of them.** -/
theorem run_layout {previous : Option Token} (h : Layout previous ts cs)
    (hspelled : ∀ t ∈ ts, t.Spelled)
    (hfitting : Fitting previous ts) (hprevious : found.head? = previous) :
    run (cs ++ [' ']) (ready found n) =
      run [' '] (ready (ts.reverse ++ found) (n + cs.length)) := by
  induction h generalizing found n with
  | nil hblanks => exact run_blanks hblanks
  | @cons previous blanks cs t ts hblanks hgap hrest ih =>
    subst hprevious
    obtain ⟨next, rest, heq, hnext⟩ := hrest.exists_next
    have hlayout : blanks ++ t.spelling.toList ++ cs ++ [' '] =
        blanks ++ (t.spelling.toList ++ next :: rest) := by rw [← heq]; simp
    rw [hlayout, run_blanks hblanks,
      run_token (hspelled t (List.mem_cons_self ..)) hfitting.1 hnext, ← heq,
      ih (fun u hu => hspelled u (List.mem_cons_of_mem _ hu)) hfitting.2 rfl]
    simp [Nat.add_assoc]

end Scanner

/-- **The tokens of texts are the canonical ones, and a layout has the tokens that are laid out**:
how they are laid out does not matter. -/
theorem scan_layout {ts : List Token} :
    ((∃ text, Token.scan text = .ok ts) ↔ Canonical ts) ∧
      (Canonical ts → ∀ text, Layout none ts text.toList → Token.scan text = .ok ts) := by
  have hlayout (h : Canonical ts) (text : String) (hl : Layout none ts text.toList) :
      Token.scan text = .ok ts := by
    have hrun : Scanner.run (text.toList ++ [' ']) (Scanner.ready [] 0) = _ :=
      Scanner.run_layout hl h.spelled h.fitting rfl
    rw [scan_of_run hrun, List.append_nil, List.reverse_reverse]
  refine ⟨⟨?_, fun h => ?_⟩, hlayout⟩
  · rintro ⟨text, hscan⟩
    exact canonical_of_scan hscan
  · obtain ⟨cs, hcs⟩ := exists_layout none ts
    exact ⟨String.ofList cs, hlayout h _ (by rwa [String.toList_ofList])⟩

theorem scan_layout_signs :
    let ts : List Token := [.number "2.", .operator (.binary .subtract), .operator (.unary .negate),
      .identifier "x"]
    Canonical ts ∧ Layout none ts " 2.-\t-x".toList ∧ Token.scan " 2.-\t-x" = .ok ts := by
  intro ts
  have hscan : Token.scan "2.--x" = .ok ts := by decide +kernel
  have hcanonical : Canonical ts := scan_layout.1.1 ⟨_, hscan⟩
  have hlayout : Layout none ts " 2.-\t-x".toList := by
    have hnone : AllBlank [] := fun c hc => by cases hc
    have hone {c : Char} (hc : isBlank c = true) : AllBlank [c] := fun d hd => by
      rwa [List.mem_singleton.1 hd]
    exact .cons (hone (c := ' ') rfl) (by simp)
      (.cons hnone (by simp [Token.standsAlone, Operator.isWord])
        (.cons (hone (c := '\t') rfl) (by simp)
          (.cons hnone (by simp [Token.standsAlone, Operator.isWord]) (.nil hnone))))
  exact ⟨hcanonical, hlayout, scan_layout.2 hcanonical _ hlayout⟩

end Formula
