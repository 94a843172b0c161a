import Formula.Proofs.Assembling
import Formula.Proofs.LongestMatch
import Formula.Proofs.Precedence
import Formula.Proofs.Reordering

/-!
# What a stage is never handed

Each stage of reading can refuse more than the stage before it ever hands on.

* `Assembly.Refuses`: why a token is refused on a stack of subtrees; `Assembly.step_eq_error_iff`.
* `ofPostfix_eq_error_iff`: tokens fail at the first of them that is refused, or for what is left.
* `mem_of_invalidNumber`, `mem_of_unexpectedToken`, `ofPostfix_eq_treesLeft_zero_iff`: what single
  refusals say.
* `toPostfix_eq_nil_iff`: what the yard hands nothing on for.
* **`refusals_of_read`**: every pending word is a number or a name, no parenthesis is assembled, a
  number is refused only if it is too large, and nothing is left only of parentheses.
-/

namespace Formula

open Numeral (IsLiteral)

/-! ## Why a token is refused -/

namespace Assembly

/-- **Why a token is refused**, on what stack. -/
inductive Refuses : List Subtree → Token → AssemblyError → Prop where
  | number {stack : List Subtree} {text : String} (h : Numeral.readFinite? text = none) :
    Refuses stack (.number text) (.invalidNumber text)
  | parenthesis {stack : List Subtree} {t : Token} (h : t.kind = .parenthesis) :
    Refuses stack t (.unexpectedToken t.text)
  | operand (op : UnaryOp) : Refuses [] (.operator (.unary op)) (.missingOperand op.symbol)
  | right (op : BinaryOp) : Refuses [] (.operator (.binary op)) (.missingRight op.symbol)
  | left (op : BinaryOp) (only : Subtree) :
    Refuses [only] (.operator (.binary op)) (.missingLeft op.symbol)
  | highUnary (op : UnaryOp) {operand : Subtree} {below : List Subtree}
    (h : maxHeight < operand.height + 1) :
    Refuses (operand :: below) (.operator (.unary op)) (.tooHigh maxHeight)
  | highBinary (op : BinaryOp) {first second : Subtree} {below : List Subtree}
    (h : maxHeight < max first.height second.height + 1) :
    Refuses (second :: first :: below) (.operator (.binary op)) (.tooHigh maxHeight)

section

variable {stack : List Subtree} {t : Token} {error : AssemblyError}

theorem checkHeight_bind_eq_error_iff {tree : Subtree} :
    (tree.checkHeight >>= fun tree => pure (tree :: stack)) = .error error ↔
      error = .tooHigh maxHeight ∧ maxHeight < tree.height := by
  rw [bind_eq_error_iff, checkHeight_eq_error_iff]
  simp [pure, Except.pure]

theorem refuses_of_step (h : step stack t = .error error) : Refuses stack t error := by
  cases t with
  | number text =>
    rw [step] at h
    split at h
    · cases h
    · next hnone =>
      cases h
      exact .number hnone
  | identifier name => cases h
  | openParen | closeParen =>
    cases h
    exact .parenthesis rfl
  | operator op =>
    cases op with
    | unary op =>
      cases stack with
      | nil =>
        cases h
        exact .operand op
      | cons operand below =>
        rw [step_unary, checkHeight_bind_eq_error_iff] at h
        obtain ⟨rfl, hlt⟩ := h
        exact .highUnary op hlt
    | binary op =>
      cases stack with
      | nil =>
        cases h
        exact .right op
      | cons second below =>
        cases below with
        | nil =>
          cases h
          exact .left op second
        | cons first below =>
          rw [step_binary, checkHeight_bind_eq_error_iff] at h
          obtain ⟨rfl, hlt⟩ := h
          exact .highBinary op hlt

theorem step_of_refuses (h : Refuses stack t error) : step stack t = .error error := by
  cases h with
  | number h => rw [step, h]
  | @parenthesis _ t h =>
    cases t with
    | number | identifier | operator => cases h
    | openParen | closeParen => rfl
  | operand | right | left => rfl
  | highUnary op h =>
    rw [step_unary, checkHeight_bind_eq_error_iff]
    exact ⟨rfl, h⟩
  | highBinary op h =>
    rw [step_binary, checkHeight_bind_eq_error_iff]
    exact ⟨rfl, h⟩

/-- **A token fails exactly for one of these reasons.** -/
theorem step_eq_error_iff : step stack t = .error error ↔ Refuses stack t error :=
  ⟨refuses_of_step, step_of_refuses⟩

theorem result_eq_error_iff :
    result stack = .error error ↔ stack.length ≠ 1 ∧ error = .treesLeft stack.length := by
  match stack with
  | [] | _ :: _ :: _ => simp [result, eq_comm]
  | [tree] => simp [result]

end

end Assembly

/-- **Assembling fails at the first token that is refused**, or at the end for the number of trees.
-/
theorem ofPostfix_eq_error_iff {ts : List Token} {error : AssemblyError} :
    Expr.ofPostfix ts = .error error ↔
      (∃ before t after stack, ts = before ++ t :: after ∧
        before.foldlM Assembly.step [] = .ok stack ∧ Assembly.Refuses stack t error) ∨
      ∃ stack, ts.foldlM Assembly.step [] = .ok stack ∧ stack.length ≠ 1 ∧
        error = .treesLeft stack.length := by
  rw [Expr.ofPostfix, bind_eq_error_iff, foldlM_eq_error_iff]
  simp only [Assembly.step_eq_error_iff, Assembly.result_eq_error_iff]

section

variable {ts : List Token}

theorem mem_of_invalidNumber {text : String}
    (h : Expr.ofPostfix ts = .error (.invalidNumber text)) :
    .number text ∈ ts ∧ Numeral.readFinite? text = none := by
  rcases ofPostfix_eq_error_iff.1 h with ⟨before, t, after, stack, rfl, -, hrefuses⟩ | ⟨_, -, -, h⟩
  · cases hrefuses with
    | number hnone => exact ⟨by simp, hnone⟩
  · cases h

theorem mem_of_unexpectedToken {text : String}
    (h : Expr.ofPostfix ts = .error (.unexpectedToken text)) : ∃ t ∈ ts, t.kind = .parenthesis := by
  rcases ofPostfix_eq_error_iff.1 h with ⟨before, t, after, stack, rfl, -, hrefuses⟩ | ⟨_, -, -, h⟩
  · cases hrefuses with
    | parenthesis hkind => exact ⟨t, by simp, hkind⟩
  · cases h

/-- Nothing is left only if there were no tokens, since each of them leaves a tree on the stack. -/
theorem ofPostfix_eq_treesLeft_zero_iff : Expr.ofPostfix ts = .error (.treesLeft 0) ↔ ts = [] := by
  constructor
  · intro h
    rcases ofPostfix_eq_error_iff.1 h with ⟨_, _, _, _, -, -, hrefuses⟩ | ⟨stack, hrun, -, h⟩
    · cases hrefuses
    · have hlength : stack.length = 0 := (AssemblyError.treesLeft.inj h).symm
      obtain rfl := List.eq_nil_of_length_eq_zero hlength
      cases Assembly.stacked_of_run hrun
      rfl
  · rintro rfl
    rfl

/-! ## What the yard hands on -/

theorem toPostfix_eq_nil_iff :
    Token.toPostfix ts = .ok [] ↔ (∀ t ∈ ts, t.kind = .parenthesis) ∧ Closes 0 ts := by
  have hbare : bare ts = [] ↔ ∀ t ∈ ts, t.kind = .parenthesis := by
    simp [bare, List.filter_eq_nil_iff]
  rw [← hbare]
  constructor
  · intro h
    exact ⟨(perm_of_toPostfix h).nil_eq.symm, closes_of_toPostfix h⟩
  · rintro ⟨hnil, hcloses⟩
    obtain ⟨out, hout⟩ := exists_toPostfix_of_closes hcloses
    have hperm := perm_of_toPostfix hout
    rw [hnil] at hperm
    rw [hout, hperm.eq_nil]

end

/-! ## What a text can be refused for -/

section

variable {text : String}

theorem read_eq_scan_error_iff {error : ScanError} :
    Expr.read text = .error (.scan error) ↔ Token.scan text = .error error := by
  simp [Expr.read, bind_eq_error_iff, mapError_eq_error_iff, mapError_eq_ok_iff]

theorem read_eq_assembly_error_iff {error : AssemblyError} :
    Expr.read text = .error (.assembly error) ↔ ∃ ts out, Token.scan text = .ok ts ∧
      Token.toPostfix ts = .ok out ∧ Expr.ofPostfix out = .error error := by
  simp [Expr.read, bind_eq_error_iff, mapError_eq_error_iff, mapError_eq_ok_iff]

theorem read?_of_readFinite?_eq_none {cs : List Char} (h : IsLiteral cs)
    (hnone : Numeral.readFinite? (String.ofList cs) = none) :
    ∃ x, Numeral.read? (String.ofList cs) = some x ∧ x.isInf = true ∧
      Numeral.isSigned x = false := by
  obtain ⟨code, hle, hread⟩ := h.read?
  refine ⟨_, hread, ?_⟩
  rcases Nat.lt_or_eq_of_le hle with hlt | rfl
  · rw [Numeral.readFinite?, hread, Option.filter_some,
      if_pos (Numeral.isFinite_ofMagnitude false hlt)] at hnone
    cases hnone
  · decide

theorem read_literal_of_none {cs : List Char} (h : IsLiteral cs)
    (hnone : Numeral.readFinite? (String.ofList cs) = none) :
    Expr.read (String.ofList cs) = .error (.assembly (.invalidNumber (String.ofList cs))) := by
  have hrun : Scanner.run ((String.ofList cs).toList ++ [' ']) (Scanner.ready [] 0) =
      Scanner.run [' '] (Scanner.ready [.number (String.ofList cs)] (0 + cs.length)) := by
    rw [String.toList_ofList]
    exact Scanner.run_literal h Scanner.stops_blank
  have hscan : Token.scan (String.ofList cs) = .ok [.number (String.ofList cs)] := scan_of_run hrun
  have hordered : Token.toPostfix [.number (String.ofList cs)] =
      .ok [.number (String.ofList cs)] := rfl
  rw [read_eq_of_toPostfix hscan hordered, Expr.ofPostfix, List.foldlM_cons, Assembly.step, hnone]
  rfl

theorem literal_of_read {literal : String}
    (h : Expr.read text = .error (.assembly (.invalidNumber literal))) :
    (∃ ts, Token.scan text = .ok ts ∧ .number literal ∈ ts) ∧ IsLiteral literal.toList ∧
      ∃ x, Numeral.read? literal = some x ∧ x.isInf = true ∧ Numeral.isSigned x = false := by
  obtain ⟨ts, out, hscan, hout, herror⟩ := read_eq_assembly_error_iff.1 h
  obtain ⟨hmem, hnone⟩ := mem_of_invalidNumber herror
  have hts := mem_of_toPostfix hout hmem
  have hliteral : IsLiteral literal.toList := spelled_of_scan hscan _ hts
  rw [← String.ofList_toList (s := literal)] at hnone
  have hread := read?_of_readFinite?_eq_none hliteral hnone
  rw [String.ofList_toList] at hread
  exact ⟨⟨ts, hscan, hts⟩, hliteral, hread⟩

theorem read_eq_treesLeft_zero_iff : Expr.read text = .error (.assembly (.treesLeft 0)) ↔
    ∃ ts, Token.scan text = .ok ts ∧ (∀ t ∈ ts, t.kind = .parenthesis) ∧ Closes 0 ts := by
  rw [read_eq_assembly_error_iff]
  constructor
  · rintro ⟨ts, out, hscan, hout, herror⟩
    obtain rfl := ofPostfix_eq_treesLeft_zero_iff.1 herror
    exact ⟨ts, hscan, toPostfix_eq_nil_iff.1 hout⟩
  · rintro ⟨ts, hscan, hts⟩
    exact ⟨ts, [], hscan, toPostfix_eq_nil_iff.2 hts, rfl⟩

/-- **No text is refused for a pending word, or for a parenthesis to assemble.** A number is refused
only if it is too large, and nothing is left to assemble only of parentheses that match. -/
theorem refusals_of_read (text : String) :
    (∀ word, Expr.read text ≠ .error (.scan (.invalidWord word))) ∧
      (∀ token, Expr.read text ≠ .error (.assembly (.unexpectedToken token))) ∧
      (∀ literal, Expr.read text = .error (.assembly (.invalidNumber literal)) →
        (∃ ts, Token.scan text = .ok ts ∧ .number literal ∈ ts) ∧ IsLiteral literal.toList ∧
          ∃ x, Numeral.read? literal = some x ∧ x.isInf = true ∧ Numeral.isSigned x = false) ∧
      (Expr.read text = .error (.assembly (.treesLeft 0)) ↔
        ∃ ts, Token.scan text = .ok ts ∧ (∀ t ∈ ts, t.kind = .parenthesis) ∧ Closes 0 ts) := by
  refine ⟨fun word h => ?_, fun token h => ?_, fun literal => literal_of_read,
    read_eq_treesLeft_zero_iff⟩
  · have hlexed := lexed_scan text
    rw [read_eq_scan_error_iff.1 h] at hlexed
    obtain ⟨c, n, herror⟩ := hlexed.error
    cases herror
  · obtain ⟨ts, out, -, hout, herror⟩ := read_eq_assembly_error_iff.1 h
    obtain ⟨t, ht, hkind⟩ := mem_of_unexpectedToken herror
    exact kind_of_toPostfix hout t ht hkind

end

theorem refusals_of_read_overflow :
    Expr.read (String.ofList (List.replicate 309 '9')) =
        .error (.assembly (.invalidNumber (String.ofList (List.replicate 309 '9')))) ∧
      ∃ x, Numeral.read? (String.ofList (List.replicate 309 '9')) = some x ∧ x.isInf = true ∧
        Numeral.isSigned x = false := by
  have hdigits : Numeral.AllDigits (List.replicate 309 '9') := fun c hc => by
    rw [(List.mem_replicate.1 hc).2]
    rfl
  have hnone : Numeral.readFinite? (String.ofList (List.replicate 309 '9')) = none := by
    -- the kernel is slow at decoding the text, so it is given the characters
    rw [Numeral.readFinite?, Numeral.read?, String.toList_ofList]
    decide +kernel
  have hread := read_literal_of_none (.whole (List.cons_ne_nil _ _) hdigits) hnone
  exact ⟨hread, ((refusals_of_read _).2.2.1 _ hread).2.2⟩

end Formula
