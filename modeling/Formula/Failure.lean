import Formula.Decimal.Numeral

/-!
# Failures

One type for each thing that can go wrong, and the wording of each.

* `ScanError`: the text does not split into tokens.
* `ParenError`: the parentheses do not match.
* `AssemblyError`: the tokens do not make up a tree.
* `ReadError`: one of these three, from reading a formula.
* `EvalError`: a tree has no value.
* `Failure`: either, from reading and evaluating a formula.
-/

namespace Formula

/-- Why a text does not split into tokens. -/
inductive ScanError where
  /-- No token begins with the character at this position, counted from zero. -/
  | unexpectedCharacter (character : Char) (position : Nat)
  /-- A pending word that is neither a number nor a name. -/
  | invalidWord (text : String)
  deriving DecidableEq

/-- How parentheses fail to match. -/
inductive ParenError where
  | unmatchedClose
  | unclosedOpen
  deriving DecidableEq

/-- Why tokens in postfix order do not make up a tree. Operators are named by their symbols. -/
inductive AssemblyError where
  /-- The text of a number token is no finite number. -/
  | invalidNumber (text : String)
  | missingOperand (symbol : String)
  | missingLeft (symbol : String)
  | missingRight (symbol : String)
  | unexpectedToken (text : String)
  /-- Not one tree is left at the end, but this many. -/
  | treesLeft (count : Nat)
  /-- The tree has more levels than this. -/
  | tooHigh (levels : Nat)
  deriving DecidableEq

/-- Why a tree has no value. -/
inductive EvalError where
  | unboundName (name : String)
  | negativeRoot (operand : Float)
  | zeroDivisor (dividend : Float)
  | logarithmDomain (argument base : Float)
  deriving DecidableEq

/-- Why a text is no formula, by the stage at which that shows. -/
inductive ReadError where
  | scan (error : ScanError)
  | paren (error : ParenError)
  | assembly (error : AssemblyError)
  deriving DecidableEq

/-- Why a text has no value: it is no formula, or the formula has none. -/
inductive Failure where
  | read (error : ReadError)
  | eval (error : EvalError)
  deriving DecidableEq

/-! ## Wording -/

def ScanError.message : ScanError → String
  | unexpectedCharacter character position =>
    "unexpected character '" ++ character.toString ++ "' at position " ++ position.repr
  | invalidWord text => "invalid syntax: '" ++ text ++ "'"

def ParenError.message : ParenError → String
  | unmatchedClose => "close parenthesis without matching open parenthesis"
  | unclosedOpen => "unclosed open parenthesis"

def AssemblyError.message : AssemblyError → String
  | invalidNumber text => "cannot convert to float: " ++ text
  | missingOperand symbol => "missing operand for unary " ++ symbol
  | missingLeft symbol => "missing LHS operand for binary " ++ symbol
  | missingRight symbol => "missing RHS operand for binary " ++ symbol
  | unexpectedToken text => "unexpected token: " ++ text
  | treesLeft count => "invalid final stack length: " ++ count.repr
  | tooHigh levels => "expression nested deeper than " ++ levels.repr ++ " levels"

def EvalError.message : EvalError → String
  | unboundName name => "symbol not found: " ++ name
  | negativeRoot operand => "square root of negative number: " ++ Numeral.write operand
  | zeroDivisor dividend => "division by zero: " ++ Numeral.write dividend ++ " / 0"
  | logarithmDomain argument base =>
    "logarithm out of domain: " ++ Numeral.write argument ++ " log " ++ Numeral.write base

/-- The wording of the error, which names the stage it comes from. -/
def ReadError.message : ReadError → String
  | scan error => "Tokenizer error: " ++ error.message
  | paren error => "RPN conversion error: " ++ error.message
  | assembly error => "Builder error: " ++ error.message

/-- The wording of the failure; an evaluation error is marked as one. -/
def Failure.message : Failure → String
  | read error => error.message
  | eval error => "Evaluation error: " ++ error.message

end Formula
