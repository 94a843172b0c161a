import Formula.Operator

/-!
# Tokens

* `Token`: the words and marks that a formula is written with.
* `Token.text`: the spelling of a token.
* **`Token.reserved?`**: the token that a spelling is reserved for.
-/

namespace Formula

/-- A word or a mark of a formula. Numbers and identifiers keep their text. -/
inductive Token where
  | operator (op : Operator)
  | openParen
  | closeParen
  | number (text : String)
  | identifier (name : String)
  deriving DecidableEq

inductive TokenKind where
  | operator
  | parenthesis
  | number
  | identifier
  deriving DecidableEq

namespace Token

/-- The spelling of the token. -/
def text : Token → String
  | operator op => op.symbol
  | openParen => "("
  | closeParen => ")"
  | number text => text
  | identifier name => name

def kind : Token → TokenKind
  | operator _ => .operator
  | openParen | closeParen => .parenthesis
  | number _ => .number
  | identifier _ => .identifier

/-- Whether the token is complete as soon as it is seen, since no longer token begins with it. -/
def standsAlone : Token → Bool
  | operator op => !op.isWord
  | openParen | closeParen => true
  | number _ | identifier _ => false

/-- The priority of a token that can wait for its operands to be complete. An open parenthesis binds
tighter than any operator. -/
def priority : Token → Option Nat
  | openParen => some 10
  | operator op => some op.priority
  | closeParen | number _ | identifier _ => none

/-! ## Reserved spellings -/

/-- The tokens with a spelling of their own. Negation has none: it is written like subtraction. -/
def reserved : List Token :=
  [operator (.binary .add), operator (.binary .subtract), operator (.binary .multiply),
    operator (.binary .divide), operator (.binary .power), operator (.unary .squareRoot),
    operator (.binary .logarithm), operator (.unary .sine), operator (.unary .cosine),
    operator (.unary .tangent), openParen, closeParen]

/-- **The token that the spelling is reserved for**, if there is one. -/
def reserved? (spelling : String) : Option Token :=
  reserved.find? (·.text == spelling)

theorem text_of_reserved? {spelling : String} {token : Token}
    (h : reserved? spelling = some token) : token.text = spelling := by
  simpa using List.find?_some h

end Token

end Formula
