import Formula.Failure
import Formula.Token

/-!
# Postfix order

Tokens are brought from the order in which they are written into postfix order, with every operator
behind its operands and no parentheses. Operators wait on a side track until what binds tighter has
gone by; an open parenthesis holds back all that waits below it.

The cars on the track may be anything that carries a token, such as a token with its place in the
text.

* `Yard`: what has left the yard and what waits on the side track.
* `Yard.step`: one car comes in.
* `Yard.order`: all cars come in, and the side track is cleared.
* **`Token.toPostfix`**: the tokens themselves in postfix order, or why their parentheses do not
  match.
-/

namespace Formula

/-- A yard in which cars that carry tokens are put into order. -/
structure Yard (α : Type) where
  /-- The cars that have left, the last one first. -/
  output : List α := []
  /-- The cars on the side track, the last one in first. -/
  waiting : List α := []

namespace Yard

variable {α : Type} (token : α → Token)

/-- Whether a waiting car leaves before one with the operator `incoming` is put to wait. -/
def leavesFor (incoming : Operator) (car : α) : Bool :=
  match token car with
  | .operator op => op.goesBefore incoming
  | _ => false

/-- An operand leaves at once. -/
def pass (yard : Yard α) (car : α) : Yard α :=
  { yard with output := car :: yard.output }

/-- An open parenthesis waits on top of all others. -/
def wait (yard : Yard α) (car : α) : Yard α :=
  { yard with waiting := car :: yard.waiting }

/-- An operator waits after those that go before it have left. -/
def putOperator (yard : Yard α) (incoming : Operator) (car : α) : Yard α where
  output := (yard.waiting.takeWhile (leavesFor token incoming)).reverse ++ yard.output
  waiting := car :: yard.waiting.dropWhile (leavesFor token incoming)

/-- A close parenthesis lets leave what waits down to its open one, which is then dropped. -/
def close (yard : Yard α) : Except ParenError (Yard α) :=
  match yard.waiting.dropWhile (token · != .openParen) with
  | [] => .error .unmatchedClose
  | _ :: below =>
    .ok ⟨(yard.waiting.takeWhile (token · != .openParen)).reverse ++ yard.output, below⟩

/-- One car comes in. -/
def step (yard : Yard α) (car : α) : Except ParenError (Yard α) :=
  match token car with
  | .number _ | .identifier _ => .ok (yard.pass car)
  | .openParen => .ok (yard.wait car)
  | .closeParen => yard.close token
  | .operator incoming => .ok (yard.putOperator token incoming car)

/-- The cars in the order in which they leave, when those that wait go last. No open parenthesis may
be among them. -/
def finish (yard : Yard α) : Except ParenError (List α) :=
  if yard.waiting.any (token · == .openParen) then .error .unclosedOpen
  else .ok (yard.output.reverse ++ yard.waiting)

/-- The cars in postfix order. -/
def order (cars : List α) : Except ParenError (List α) := do
  let yard ← cars.foldlM (step token) {}
  yard.finish token

end Yard

/-- **The tokens in postfix order**, without parentheses. -/
def Token.toPostfix (tokens : List Token) : Except ParenError (List Token) :=
  Yard.order id tokens

end Formula
