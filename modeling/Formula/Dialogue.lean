import Formula.Calculator
import Formula.Expr.Render
import Formula.Text.Lines

/-!
# The dialogue

A formula is asked for, then a value for each name in it, and the result is told. So it goes on
until the input ends.

* `Stage`, `Dialogue`: what the next line is taken for, and the calculator in use.
* `Dialogue.start`: before the first line.
* `Dialogue.prompt`: what is written before a line is read.
* `Dialogue.respond`: what is written after it, and how the dialogue goes on.
* **`Dialogue.converse`**: all that is written over a stream of bytes.
-/

namespace Formula

/-- What the next line is taken for. -/
inductive Stage where
  /-- A formula. -/
  | formula
  /-- The value of `name` in the tree `expr`. The names in `later` come after it. -/
  | value (expr : Expr) (values : Values) (name : String) (later : List String)

/-- The state of a dialogue before a line is read, whose calculator has a store of type `σ`. -/
structure Dialogue (σ : Type := Recent String Reading) where
  calculator : Calculator σ
  stage : Stage := .formula

namespace Dialogue

variable {σ : Type} [Store σ String Reading]

/-- A dialogue before its first line. -/
def start : Dialogue σ where
  calculator := .standard

/-- What is written before a line is read. -/
def prompt (d : Dialogue σ) : String :=
  match d.stage with
  | .formula => "Input expression: "
  | .value _ _ name _ => name ++ " = "

def restart (d : Dialogue σ) : Dialogue σ :=
  { d with stage := .formula }

/-- What is written about the value of a tree. -/
def report (e : Expr) (values : Values) : String :=
  match e.eval values with
  | .ok x => "Evaluation result: " ++ Numeral.write x ++ "\n"
  | .error error => "Evaluation error: " ++ error.message ++ "\n"

/-- The next name is asked for. When none is left, the value of the tree is told. -/
def continueWith (d : Dialogue σ) (e : Expr) (values : Values) : List String → String × Dialogue σ
  | [] => (report e values, d.restart)
  | name :: later => ("", { d with stage := .value e values name later })

/-- What is written when a formula has been read. -/
def announce (e : Expr) : String :=
  "Parsed as: " ++ e.render ++ "\n" ++
    if e.names = [] then "" else "Values required for evaluation...\n"

/-- The answer to a line that is taken for a formula. A blank line is passed over. -/
def respondFormula (d : Dialogue σ) (text : String) : String × Dialogue σ :=
  if text = "" then ("", d)
  else
    match d.calculator.read text with
    | (.error error, c) =>
      ("Error during parsing: " ++ error.message ++ "\n", { d with calculator := c })
    | (.ok reading, c) =>
      let e := reading.expr
      let (reply, next) := { d with calculator := c }.continueWith e .empty e.names
      (announce e ++ reply, next)

/-- The answer to a line that is taken for a value. A formula is given up if it is no finite number.
-/
def respondValue (d : Dialogue σ) (e : Expr) (values : Values) (name : String) (later : List String)
    (text : String) : String × Dialogue σ :=
  match Numeral.readFinite? text with
  | some x => d.continueWith e (values.bind name x) later
  | none => ("invalid float: " ++ text ++ "\n", d.restart)

/-- **The answer to a line**, and how the dialogue goes on. Blank characters at the ends of the line
do not count. -/
def respond (d : Dialogue σ) (line : String) : String × Dialogue σ :=
  match d.stage with
  | .formula => d.respondFormula (trim line)
  | .value e values name later => d.respondValue e values name later (trim line)

end Dialogue

/-! ## Whole dialogues -/

/-- Why a dialogue breaks off. -/
inductive InputError where
  /-- The bytes of a line are not valid UTF-8. -/
  | invalidText
  deriving DecidableEq

def InputError.message : InputError → String
  | invalidText => "stream did not contain valid UTF-8"

/-- The exit code of a program whose dialogue broke off with the error, or else came to its end. -/
def exitCode (error : Option InputError) : UInt8 :=
  if error.isSome then 1 else 0

/-- What has been written by the end of a dialogue, and why it broke off if it did. -/
structure Transcript where
  output : String
  error : Option InputError := none
  deriving DecidableEq

namespace Transcript

/-- The transcript with more text written before it. -/
def after (t : Transcript) (text : String) : Transcript :=
  { t with output := text ++ t.output }

/-- The exit code of a program that has held the dialogue. -/
def exitCode (t : Transcript) : UInt8 :=
  Formula.exitCode t.error

end Transcript

namespace Dialogue

/-- The dialogue over the lines still to be read, up to one that does not encode a text. -/
def converseLines {σ : Type} [Store σ String Reading] (d : Dialogue σ) :
    List (List UInt8) → Transcript
  | [] => { output := d.prompt }
  | line :: rest =>
    match Lines.decode? line with
    | none => { output := d.prompt, error := some .invalidText }
    | some text =>
      let (reply, next) := d.respond text
      (next.converseLines rest).after (d.prompt ++ reply)

/-- **The dialogue over a stream of bytes**, with a store of type `σ` for its calculator. -/
def converse (input : List UInt8) (σ : Type := Recent String Reading) [Store σ String Reading] :
    Transcript :=
  (start : Dialogue σ).converseLines (Lines.split input)

end Dialogue

end Formula
