import Formula.Proofs.Names
import Formula.Proofs.Turns
import Mathlib.Data.List.Induction

/-!
# The exchanges of a dialogue

A dialogue is a series of exchanges, one after the other. In each of them a formula is read, and
then a line for each of its names, until its value is told or it is given up.

* `Inquiry`: a formula that was read, and the values that were given for the first of its names.
* `Exchange`, `Exchange.lines`, `Exchange.output`: the lines that make up an exchange, and what is
  written.
* `Ending`: what the last lines have begun.
* `Recounted`: some lines are exchanges and an ending; **`recounted_respond`**: so they are with one
  line more.
* **`converse_exchanges`**: so is every dialogue over a text.
-/

namespace Formula

/-- The writing about the value of a formula. -/
def outcome : Except Failure Float → String
  | .ok x => "Evaluation result: " ++ Numeral.write x ++ "\n"
  | .error failure => failure.message ++ "\n"

/-- A value that was given for a name, in a line that reads as a finite number. -/
structure Entry where
  name : String
  line : String
  value : Float
  read_eq : Numeral.readFinite? (trim line) = some value

/-- A formula that was read, the values given so far, and the names that still lack one. -/
structure Inquiry where
  line : String
  expr : Expr
  entries : List Entry
  later : List String
  line_ne : trim line ≠ ""
  read_eq : Expr.read (trim line) = .ok expr
  names_eq : expr.names = entries.map Entry.name ++ later

namespace Inquiry

def values (q : Inquiry) : Values :=
  .ofList (q.entries.map fun entry => (entry.name, entry.value))

/-- The lines of the formula and of the values. -/
def lines (q : Inquiry) : List String :=
  q.line :: q.entries.map Entry.line

/-- What is written until the last of these lines has been read. -/
def output (q : Inquiry) : String :=
  "Input expression: " ++ Dialogue.announce q.expr ++
    String.join (q.entries.map fun entry => entry.name ++ " = ")

end Inquiry

/-- An exchange that has come to its end. -/
inductive Exchange where
  /-- The line is passed over. -/
  | blank (line : String) (h : trim line = "")
  /-- The line is no formula. -/
  | unreadable (line : String) (error : ReadError) (hne : trim line ≠ "")
    (h : Expr.read (trim line) = .error error)
  /-- All names have a value, and that of the formula is told. -/
  | told (q : Inquiry) (h : q.later = [])
  /-- The line for the next name is no finite number. -/
  | givenUp (q : Inquiry) (name : String) (later : List String) (h : q.later = name :: later)
    (rejected : String) (hrejected : Numeral.readFinite? (trim rejected) = none)

namespace Exchange

def lines : Exchange → List String
  | blank line _ | unreadable line _ _ _ => [line]
  | told q _ => q.lines
  | givenUp q _ _ _ rejected _ => q.lines ++ [rejected]

def output : Exchange → String
  | blank _ _ => "Input expression: "
  | unreadable _ error _ _ =>
    "Input expression: " ++ ("Error during parsing: " ++ error.message ++ "\n")
  | told q _ => q.output ++ outcome (evaluate (trim q.line) q.values)
  | givenUp q name _ _ rejected _ =>
    q.output ++ (name ++ " = " ++ ("invalid float: " ++ trim rejected ++ "\n"))

end Exchange

/-- What has been begun when the input ends. -/
inductive Ending where
  /-- A formula is asked for. -/
  | formula
  /-- The value of the next name is asked for. -/
  | value (q : Inquiry) (name : String) (later : List String) (h : q.later = name :: later)

namespace Ending

/-- The lines that have been read since the last exchange. -/
def lines : Ending → List String
  | formula => []
  | value q _ _ _ => q.lines

/-- What has been written since the last exchange, up to what is asked for. -/
def written : Ending → String
  | formula => ""
  | value q _ _ _ => q.output

def prompt : Ending → String
  | formula => "Input expression: "
  | value _ name _ _ => name ++ " = "

def stage : Ending → Stage
  | formula => .formula
  | value q name later _ => .value q.expr q.values name later

end Ending

/-! ## The values of an inquiry -/

theorem Values.ofList_concat {bindings : List (String × Float)} {name : String}
    (h : name ∉ bindings.map Prod.fst) (x : Float) :
    Values.ofList (bindings ++ [(name, x)]) = (Values.ofList bindings).bind name x := by
  have hnone : bindings.lookup name = none := by
    refine List.lookup_eq_none_iff.2 fun binding hmem => bne_iff_ne.2 ?_
    rintro rfl
    exact h (List.mem_map_of_mem hmem)
  funext other
  rw [ofList, List.lookup_append, bind, ofList]
  by_cases heq : other = name
  · subst heq
    simp [hnone]
  · have hother : (other == name) = false := beq_eq_false_iff_ne.2 heq
    simp [List.lookup_cons, hother, heq]

theorem Values.ofList_ne_none {bindings : List (String × Float)} {name : String}
    (h : name ∈ bindings.map Prod.fst) : Values.ofList bindings name ≠ none := by
  rw [ofList, ne_eq, List.lookup_eq_none_iff]
  intro hnone
  obtain ⟨binding, hmem, rfl⟩ := List.mem_map.1 h
  exact absurd (hnone binding hmem) (by simp)

theorem Entry.isFinite (entry : Entry) : entry.value.isFinite = true :=
  (Option.filter_eq_some_iff.1 entry.read_eq).2

namespace Inquiry

theorem map_fst_bindings (entries : List Entry) :
    (entries.map fun entry => (entry.name, entry.value)).map Prod.fst = entries.map Entry.name := by
  rw [List.map_map]
  rfl

/-- The inquiry about a formula before its first name is asked for. -/
def begin (line : String) (e : Expr) (hne : trim line ≠ "") (h : Expr.read (trim line) = .ok e) :
    Inquiry where
  line := line
  expr := e
  entries := []
  later := e.names
  line_ne := hne
  read_eq := h
  names_eq := rfl

/-- The inquiry with a value for the next name. -/
def answer (q : Inquiry) (entry : Entry) (later : List String) (h : q.later = entry.name :: later) :
    Inquiry where
  line := q.line
  expr := q.expr
  entries := q.entries ++ [entry]
  later := later
  line_ne := q.line_ne
  read_eq := q.read_eq
  names_eq := by rw [q.names_eq, h, List.map_append, List.append_assoc, List.map_singleton]; rfl

section

variable {q : Inquiry} {entry : Entry} {later : List String}

theorem values_answer (h : q.later = entry.name :: later) :
    (q.answer entry later h).values = q.values.bind entry.name entry.value := by
  rw [values, values, answer, List.map_append, List.map_singleton]
  refine Values.ofList_concat ?_ entry.value
  rw [map_fst_bindings]
  have hnodup := q.expr.nodup_names
  rw [q.names_eq, h, List.nodup_append] at hnodup
  exact fun hmem => hnodup.2.2 entry.name hmem entry.name List.mem_cons_self rfl

theorem lines_answer (h : q.later = entry.name :: later) :
    (q.answer entry later h).lines = q.lines ++ [entry.line] := by
  rw [lines, lines, answer, List.map_append]
  rfl

theorem output_answer (h : q.later = entry.name :: later) :
    (q.answer entry later h).output = q.output ++ (entry.name ++ " = ") := by
  have hjoin : String.join ((q.entries ++ [entry]).map fun entry => entry.name ++ " = ") =
      String.join (q.entries.map fun entry => entry.name ++ " = ") ++ (entry.name ++ " = ") := by
    rw [List.map_append, List.map_singleton, String.join_append, String.join_cons, String.join_nil,
      String.append_empty]
  exact (congrArg _ hjoin).trans String.append_assoc.symm

theorem map_name_of_told (q : Inquiry) (h : q.later = []) :
    q.entries.map Entry.name = q.expr.names := by
  rw [q.names_eq, h, List.append_nil]

theorem evaluate_ne_unboundName (q : Inquiry) (h : q.later = []) (name : String) :
    evaluate (trim q.line) q.values ≠ .error (.eval (.unboundName name)) := by
  rw [evaluate_eq_eval q.read_eq, ne_eq, mapError_eq_error_iff]
  rintro ⟨error, heval, herror⟩
  obtain rfl := Failure.eval.inj herror
  obtain ⟨hmem, hnone⟩ := Expr.eval_eq_unboundName heval
  rw [← q.map_name_of_told h, ← map_fst_bindings] at hmem
  exact Values.ofList_ne_none hmem hnone

theorem report_eq (q : Inquiry) :
    Dialogue.report q.expr q.values = outcome (evaluate (trim q.line) q.values) := by
  rw [evaluate_eq_eval q.read_eq, Dialogue.report]
  cases q.expr.eval q.values with
  | ok x => rfl
  | error error => rfl

end

end Inquiry

/-! ## Lines as exchanges -/

/-- **The lines are exchanges, one behind the other, and an ending.** So is what has been written
for them, and the next line is taken for what the ending asks for. -/
def Recounted (lines : List String) (written : String) (stage : Stage) : Prop :=
  ∃ (exchanges : List Exchange) (ending : Ending),
    lines = exchanges.flatMap Exchange.lines ++ ending.lines ∧
    written = String.join (exchanges.map Exchange.output) ++ ending.written ∧ stage = ending.stage

theorem recounted_nil : Recounted [] "" .formula :=
  ⟨[], .formula, rfl, rfl, rfl⟩

theorem Recounted.behind {lines : List String} {written : String} {stage : Stage}
    (h : Recounted lines written stage) (exchanges : List Exchange) :
    Recounted (exchanges.flatMap Exchange.lines ++ lines)
      (String.join (exchanges.map Exchange.output) ++ written) stage := by
  obtain ⟨more, ending, rfl, rfl, rfl⟩ := h
  refine ⟨exchanges ++ more, ending, ?_, ?_, rfl⟩
  · rw [List.flatMap_append, List.append_assoc]
  · rw [List.map_append, String.join_append, String.append_assoc]

theorem Exchange.recounted (exchange : Exchange) :
    Recounted exchange.lines exchange.output .formula :=
  ⟨[exchange], .formula, by simp [Ending.lines], by simp [Ending.written], rfl⟩

theorem Inquiry.recounted {q : Inquiry} {reply : String} {next : Stage}
    (h : Dialogue.GoesOn q.expr q.values q.later reply next) :
    Recounted q.lines (q.output ++ reply) next := by
  generalize hlater : q.later = later at h
  cases h with
  | told =>
    rw [q.report_eq]
    exact (Exchange.told q hlater).recounted
  | asks name later => exact ⟨[], .value q name later hlater, rfl, by simp [Ending.written], rfl⟩

theorem Ending.turn {ending : Ending} {line reply : String} {next : Stage}
    (h : Dialogue.Turn ending.stage line reply next) :
    Recounted (ending.lines ++ [line]) (ending.written ++ (ending.prompt ++ reply)) next := by
  cases ending with
  | formula =>
    rw [written, String.empty_append]
    cases h with
    | blank h => exact (Exchange.blank line h).recounted
    | unreadable hne h => exact (Exchange.unreadable line _ hne h).recounted
    | @read _ e _ _ hne h hnext =>
      have hrecounted := (Inquiry.begin line e hne h).recounted hnext
      have houtput : (Inquiry.begin line e hne h).output =
          "Input expression: " ++ Dialogue.announce e :=
        String.append_empty
      rwa [houtput, String.append_assoc] at hrecounted
  | value q name later hlater =>
    cases h with
    | @value _ _ _ _ _ x _ _ hx hnext =>
      let entry : Entry := ⟨name, line, x, hx⟩
      have hanswer : q.later = entry.name :: later := hlater
      rw [← Inquiry.values_answer hanswer] at hnext
      have hrecounted := (q.answer entry later hanswer).recounted hnext
      rwa [Inquiry.lines_answer, Inquiry.output_answer, String.append_assoc] at hrecounted
    | rejected hrejected =>
      exact (Exchange.givenUp q name later hlater line hrejected).recounted

namespace Dialogue

section

variable {σ : Type}

theorem prompt_eq_of_stage {d : Dialogue σ} {ending : Ending} (h : d.stage = ending.stage) :
    d.prompt = ending.prompt := by
  rw [prompt, h]
  cases ending <;> rfl

/-- **One line more** belongs to what the last lines have begun, or begins an exchange. -/
theorem recounted_respond {d : Dialogue σ} {lines : List String} {written line reply : String}
    {next : Stage} (h : Recounted lines written d.stage) (hturn : Turn d.stage line reply next) :
    Recounted (lines ++ [line]) (written ++ d.prompt ++ reply) next := by
  obtain ⟨exchanges, ending, rfl, rfl, hstage⟩ := h
  rw [hstage] at hturn
  have hrecounted := (Ending.turn hturn).behind exchanges
  rw [← prompt_eq_of_stage hstage] at hrecounted
  rw [← List.append_assoc, ← String.append_assoc, ← String.append_assoc] at hrecounted
  exact hrecounted

/-- **All lines that have been heard are exchanges**, up to what the last ones have begun. -/
theorem recounted_hear [Store σ String Reading] [LawfulStore σ] (lines : List String) :
    Recounted lines ((start : Dialogue σ).written lines)
      ((start : Dialogue σ).hear lines).stage := by
  -- the last line is taken off, since it goes on with what those before it have begun
  induction lines using List.reverseRecOn with
  | nil => exact recounted_nil
  | append_singleton lines line ih =>
    rw [written_concat, hear_concat]
    exact recounted_respond ih (turn_respond (sound_hear sound_start lines) line).1

/-! ## Dialogues over a text -/

/-- **A dialogue over a text is a series of exchanges**, up to what its last lines have begun: a
formula, a finite number for each of its names, and what it comes to when they stand for these. -/
theorem converse_exchanges [Store σ String Reading] [LawfulStore σ] (text : String) :
    ∃ (exchanges : List Exchange) (ending : Ending),
      Lines.split (Lines.encode text) =
        (exchanges.flatMap Exchange.lines ++ ending.lines).map Lines.encode ∧
      converse (Lines.encode text) σ =
        { output :=
            String.join (exchanges.map Exchange.output) ++ ending.written ++ ending.prompt } ∧
      (∀ q h, Exchange.told q h ∈ exchanges →
        q.entries.map Entry.name = q.expr.names ∧
        (∀ entry ∈ q.entries, Numeral.readFinite? (trim entry.line) = some entry.value ∧
          entry.value.isFinite = true) ∧
        ∀ name, evaluate (trim q.line) q.values ≠ .error (.eval (.unboundName name))) ∧
      ∀ q name later h rejected hrejected,
        Exchange.givenUp q name later h rejected hrejected ∈ exchanges →
        q.expr.names = q.entries.map Entry.name ++ name :: later := by
  obtain ⟨lines, hlines⟩ := Lines.exists_split_encode text
  obtain ⟨exchanges, ending, hrecount, hwritten, hstage⟩ := recounted_hear (σ := σ) lines
  refine ⟨exchanges, ending, hlines.trans (congrArg _ hrecount), ?_, fun q h _ => ?_, ?_⟩
  · rw [converse_of_split hlines, hwritten, prompt_eq_of_stage hstage]
  · exact ⟨q.map_name_of_told h, fun entry _ => ⟨entry.read_eq, entry.isFinite⟩,
      q.evaluate_ne_unboundName h⟩
  · intro q name later h _ _ _
    rw [q.names_eq, h]

end

theorem converse_exchanges_rejected :
    ∃ (exchanges : List Exchange) (ending : Ending),
      ["x + y * x\n", "2\n", "5\n", "y\n", "inf\n"].map Lines.encode =
        (exchanges.flatMap Exchange.lines ++ ending.lines).map Lines.encode ∧
      "Input expression: Parsed as: (x + (y * x))\nValues required for evaluation...\nx = y = " ++
          "Evaluation result: 12\nInput expression: Parsed as: y\n" ++
          "Values required for evaluation...\ny = invalid float: inf\nInput expression: " =
        String.join (exchanges.map Exchange.output) ++ ending.written ++ ending.prompt ∧
      ∀ q h, Exchange.told q h ∈ exchanges → q.entries.map Entry.name = q.expr.names := by
  obtain ⟨exchanges, ending, hlines, houtput, htold, -⟩ :=
    converse_exchanges (σ := Recent String Reading) "x + y * x\n2\n5\ny\ninf\n"
  refine ⟨exchanges, ending, .trans (by decide +kernel) hlines, ?_,
    fun q h hmem => (htold q h hmem).1⟩
  exact .trans (by decide +kernel) (congrArg Transcript.output houtput)

end Dialogue

end Formula
