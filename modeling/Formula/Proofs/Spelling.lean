import Formula.Proofs.Grammar
import Formula.Proofs.Words

/-!
# Operators and parentheses of a text

A minus sign is a negation where an operand is expected, and a subtraction behind an operand. All
other operators are spelled the same everywhere.

* `Expecting`: an operand is expected.
* `Scanner.run_openParen`, `Scanner.run_closeParen`: parentheses in front of the rest.
* `Scanner.run_unary`: a function with its open parenthesis in front of the rest.
* **`Scanner.run_binary`**, **`Scanner.run_negate`**: operators in front of the rest, by what is
  before.
-/

namespace Formula.Scanner

/-- An operand is expected behind the tokens, which are given with the newest first. -/
def Expecting (ts : List Token) : Prop :=
  ∀ t ∈ ts.head?, t.endsOperand = false

theorem expecting_nil : Expecting [] := by
  intro t ht
  cases ht

theorem expecting_openParen (ts : List Token) : Expecting (.openParen :: ts) := by
  intro t ht
  cases ht
  rfl

theorem expecting_operator (op : Operator) (ts : List Token) : Expecting (.operator op :: ts) := by
  intro t ht
  cases ht
  rfl

theorem stops_blank : Stops ' ' :=
  stops_of_isBlank (by decide)

theorem stops_openParen : Stops '(' :=
  stops_of_lt (by decide)

theorem stops_closeParen : Stops ')' :=
  stops_of_lt (by decide)

/-! ## The token of a mark -/

theorem markToken_binary (op : BinaryOp) {t : Token} (h : t.endsOperand = true) :
    markToken (.operator (.binary op)) (some t) = .operator (.binary op) := by
  cases t with
  | operator | openParen => cases h
  | number | identifier | closeParen => cases op <;> rfl

theorem markToken_negate {ts : List Token} (h : Expecting ts) :
    markToken (.operator (.binary .subtract)) ts.head? = .operator (.unary .negate) := by
  cases ts with
  | nil => rfl
  | cons t ts =>
    have := h t rfl
    cases t with
    | operator | openParen => rfl
    | number | identifier | closeParen => cases this

theorem exists_symbol {op : BinaryOp} (h : (Operator.binary op).isWord = false) :
    ∃ c, op.symbol.toList = [c] ∧ mark? c = some (.operator (.binary op)) := by
  cases op with
  | add => exact ⟨'+', rfl, rfl⟩
  | subtract => exact ⟨'-', rfl, rfl⟩
  | multiply => exact ⟨'*', rfl, rfl⟩
  | divide => exact ⟨'/', rfl, rfl⟩
  | power => exact ⟨'^', rfl, rfl⟩
  | logarithm => cases h

/-! ## Marks in front of the rest -/

section

variable {next : Char} {rest : List Char} {ts : List Token} {n : Nat}

theorem run_openParen :
    run ('(' :: rest) (ready ts n) = run rest (ready (.openParen :: ts) (n + 1)) := by
  have hmark : mark? '(' = some .openParen := rfl
  rw [run_mark hmark]
  rfl

theorem run_closeParen :
    run (')' :: rest) (ready ts n) = run rest (ready (.closeParen :: ts) (n + 1)) := by
  have hmark : mark? ')' = some .closeParen := rfl
  rw [run_mark hmark]
  rfl

/-- **A minus sign is a negation where an operand is expected.** -/
theorem run_negate (h : Expecting ts) :
    run ('-' :: rest) (ready ts n) =
      run rest (ready (.operator (.unary .negate) :: ts) (n + 1)) := by
  have hmark : mark? '-' = some (.operator (.binary .subtract)) := rfl
  rw [run_mark hmark, markToken_negate h]

theorem run_function {op : UnaryOp} (h : op ≠ .negate) (hnext : extendsWord next = false) :
    run (op.symbol.toList ++ next :: rest) (ready ts n) =
      run (next :: rest) (ready (.operator (.unary op) :: ts) (n + op.symbol.toList.length)) := by
  have hword : (Operator.unary op).isWord = true := by
    cases op with
    | negate => exact absurd rfl h
    | squareRoot | sine | cosine | tangent => rfl
  exact run_keyword hword hnext

theorem run_unary {op : UnaryOp} (h : op ≠ .negate) :
    run (op.symbol.toList ++ '(' :: rest) (ready ts n) =
      run rest (ready (.openParen :: .operator (.unary op) :: ts)
        (n + op.symbol.toList.length + 1)) :=
  (run_function h stops_openParen.1).trans run_openParen

theorem run_symbol {op : BinaryOp}
    (htoken : markToken (.operator (.binary op)) ts.head? = .operator (.binary op))
    (hnext : (Operator.binary op).isWord = true → extendsWord next = false) :
    run (op.symbol.toList ++ next :: rest) (ready ts n) =
      run (next :: rest) (ready (.operator (.binary op) :: ts) (n + op.symbol.toList.length)) := by
  cases hword : (Operator.binary op).isWord with
  | true => exact run_keyword hword (hnext hword)
  | false =>
    obtain ⟨c, hsymbol, hmark⟩ := exists_symbol hword
    rw [hsymbol, List.cons_append, List.nil_append, run_mark hmark, htoken]
    rfl

/-- **A binary operator behind an operand.** -/
theorem run_binary (op : BinaryOp) {last : Token} (hlast : last.endsOperand = true)
    (hnext : extendsWord next = false) :
    run (op.symbol.toList ++ next :: rest) (ready (last :: ts) n) =
      run (next :: rest) (ready (.operator (.binary op) :: last :: ts)
        (n + op.symbol.toList.length)) :=
  run_symbol (markToken_binary op hlast) fun _ => hnext

end

end Formula.Scanner
