import Formula.Dialogue
import Formula.Proofs.Streams
import Formula.Proofs.Transparency

/-!
# Turns of a dialogue

A line is read and answered, and another one is asked for. What comes of it depends on what the line
is taken for, and not on the readings that the calculator keeps.

* `Dialogue.Turn`: what one line does, as a relation; **`turn_respond`**, `Turn.unique`.
* `Dialogue.hear`, `Dialogue.written`: the dialogue after some lines, and all that is written up to
  there.
* **`converseLines_append`**: the lines of a stream are heard one after the other.
* **`converseLines_congr`**: dialogues at one stage go on alike.
-/

namespace Formula

theorem Transcript.after_after (t : Transcript) (before text : String) :
    (t.after text).after before = t.after (before ++ text) := by
  rw [after, after, after, String.append_assoc]

theorem Transcript.exitCode_after (t : Transcript) (text : String) :
    (t.after text).exitCode = t.exitCode :=
  rfl

namespace Dialogue

/-! ## One line -/

/-- What follows when values are known for all names but those in the list. The next of them is
asked for, or the value of the tree is told. -/
inductive GoesOn (e : Expr) (values : Values) : List String → String → Stage → Prop where
  | told : GoesOn e values [] (report e values) .formula
  | asks (name : String) (later : List String) :
    GoesOn e values (name :: later) "" (.value e values name later)

/-- **What one line does**: the reply to it, and what the next line is taken for. -/
inductive Turn : Stage → String → String → Stage → Prop where
  | blank {line : String} (h : trim line = "") : Turn .formula line "" .formula
  | unreadable {line : String} {error : ReadError} (hne : trim line ≠ "")
    (h : Expr.read (trim line) = .error error) :
    Turn .formula line ("Error during parsing: " ++ error.message ++ "\n") .formula
  | read {line : String} {e : Expr} {reply : String} {next : Stage} (hne : trim line ≠ "")
    (h : Expr.read (trim line) = .ok e) (hnext : GoesOn e .empty e.names reply next) :
    Turn .formula line (announce e ++ reply) next
  | value {line : String} {e : Expr} {values : Values} {name : String} {later : List String}
    {x : Float} {reply : String} {next : Stage} (h : Numeral.readFinite? (trim line) = some x)
    (hnext : GoesOn e (values.bind name x) later reply next) :
    Turn (.value e values name later) line reply next
  | rejected {line : String} {e : Expr} {values : Values} {name : String} {later : List String}
    (h : Numeral.readFinite? (trim line) = none) :
    Turn (.value e values name later) line ("invalid float: " ++ trim line ++ "\n") .formula

section

variable {σ : Type}

theorem goesOn_continueWith (d : Dialogue σ) (e : Expr) (values : Values) (names : List String) :
    GoesOn e values names (d.continueWith e values names).1
      (d.continueWith e values names).2.stage := by
  cases names with
  | nil => exact .told
  | cons name later => exact .asks name later

theorem calculator_continueWith (d : Dialogue σ) (e : Expr) (values : Values)
    (names : List String) : (d.continueWith e values names).2.calculator = d.calculator := by
  cases names <;> rfl

theorem turn_respondValue (d : Dialogue σ) (e : Expr) (values : Values) (name : String)
    (later : List String) (line : String) :
    let answer := d.respondValue e values name later (trim line)
    Turn (.value e values name later) line answer.1 answer.2.stage ∧
      answer.2.calculator = d.calculator := by
  unfold respondValue
  split
  · next x hx => exact ⟨.value hx (goesOn_continueWith ..), calculator_continueWith ..⟩
  · next hx => exact ⟨.rejected hx, rfl⟩

end

section

variable {σ : Type} [Store σ String Reading]

theorem respond_formula {d : Dialogue σ} (h : d.stage = .formula) (line : String) :
    d.respond line = d.respondFormula (trim line) := by
  rw [respond, h]

theorem respond_value {d : Dialogue σ} {e : Expr} {values : Values} {name : String}
    {later : List String} (h : d.stage = .value e values name later) (line : String) :
    d.respond line = d.respondValue e values name later (trim line) := by
  rw [respond, h]

variable [LawfulStore σ]

theorem turn_respondFormula {d : Dialogue σ} (hd : d.calculator.Sound) (hstage : d.stage = .formula)
    (line : String) :
    let answer := d.respondFormula (trim line)
    Turn .formula line answer.1 answer.2.stage ∧ answer.2.calculator.Sound := by
  have hreads := Calculator.reads_read d.calculator (trim line)
  have hsound := hd.reads hreads
  have hread := hd.map_reads hreads
  by_cases hblank : trim line = ""
  · simp only [respondFormula, hblank, if_true, hstage]
    exact ⟨.blank hblank, hd⟩
  · cases hanswer : d.calculator.read (trim line) with
    | mk result c =>
      rw [hanswer] at hsound hread
      cases result with
      | error error =>
        simp only [respondFormula, if_neg hblank, hanswer, hstage]
        exact ⟨.unreadable hblank hread.symm, hsound⟩
      | ok reading =>
        simp only [respondFormula, if_neg hblank, hanswer, calculator_continueWith]
        exact ⟨.read hblank hread.symm (goesOn_continueWith ..), hsound⟩

/-- **A line does what its turn says**, and leaves the calculator sound. -/
theorem turn_respond {d : Dialogue σ} (hd : d.calculator.Sound) (line : String) :
    Turn d.stage line (d.respond line).1 (d.respond line).2.stage ∧
      (d.respond line).2.calculator.Sound := by
  cases hstage : d.stage with
  | formula =>
    rw [respond_formula hstage]
    exact turn_respondFormula hd hstage line
  | value e values name later =>
    obtain ⟨hturn, hcalculator⟩ := turn_respondValue d e values name later line
    rw [respond_value hstage, hcalculator]
    exact ⟨hturn, hd⟩

end

theorem GoesOn.unique {e : Expr} {values : Values} {names : List String} {reply reply' : String}
    {next next' : Stage} (h : GoesOn e values names reply next)
    (h' : GoesOn e values names reply' next') : reply = reply' ∧ next = next' := by
  cases h <;> cases h' <;> exact ⟨rfl, rfl⟩

theorem Turn.unique {stage next next' : Stage} {line reply reply' : String}
    (h : Turn stage line reply next) (h' : Turn stage line reply' next') :
    reply = reply' ∧ next = next' := by
  cases h with
  | blank h =>
    cases h' with
    | blank _ => exact ⟨rfl, rfl⟩
    | unreadable hne _ | read hne _ _ => exact absurd h hne
  | unreadable hne h =>
    cases h' with
    | blank hblank => exact absurd hblank hne
    | unreadable _ h' =>
      obtain rfl := Except.error.inj (h.symm.trans h')
      exact ⟨rfl, rfl⟩
    | read _ h' _ => exact absurd (h.symm.trans h') nofun
  | read hne h hnext =>
    cases h' with
    | blank hblank => exact absurd hblank hne
    | unreadable _ h' => exact absurd (h.symm.trans h') nofun
    | read _ h' hnext' =>
      obtain rfl := Except.ok.inj (h.symm.trans h')
      obtain ⟨rfl, rfl⟩ := hnext.unique hnext'
      exact ⟨rfl, rfl⟩
  | value h hnext =>
    cases h' with
    | value h' hnext' =>
      obtain rfl := Option.some.inj (h.symm.trans h')
      exact hnext.unique hnext'
    | rejected h' => exact absurd (h.symm.trans h') nofun
  | rejected h =>
    cases h' with
    | value h' _ => exact absurd (h.symm.trans h') nofun
    | rejected _ => exact ⟨rfl, rfl⟩

/-! ## Some lines -/

section

variable {σ : Type} [Store σ String Reading]

/-- The dialogue after it has heard the lines. -/
def hear (d : Dialogue σ) (lines : List String) : Dialogue σ :=
  lines.foldl (fun d line => (d.respond line).2) d

/-- All that is written until the lines have been answered. -/
def written (d : Dialogue σ) : List String → String
  | [] => ""
  | line :: lines => d.prompt ++ (d.respond line).1 ++ (d.respond line).2.written lines

theorem hear_concat (d : Dialogue σ) (lines : List String) (line : String) :
    d.hear (lines ++ [line]) = ((d.hear lines).respond line).2 :=
  List.foldl_append ..

theorem written_concat (d : Dialogue σ) (lines : List String) (line : String) :
    d.written (lines ++ [line]) = d.written lines ++ (d.hear lines).prompt ++
      ((d.hear lines).respond line).1 := by
  induction lines generalizing d with
  | nil => simp [written, hear]
  | cons first lines ih =>
    rw [List.cons_append, written, ih, written]
    simp only [String.append_assoc]
    rfl

theorem sound_hear [LawfulStore σ] {d : Dialogue σ} (hd : d.calculator.Sound)
    (lines : List String) : (d.hear lines).calculator.Sound := by
  induction lines generalizing d with
  | nil => exact hd
  | cons line lines ih => exact ih (turn_respond hd line).2

theorem sound_start [LawfulStore σ] : (start : Dialogue σ).calculator.Sound :=
  Calculator.sound_ofCapacity 100

/-! ## A stream of lines -/

theorem converseLines_encode_cons (d : Dialogue σ) (line : String) (more : List (List UInt8)) :
    d.converseLines (Lines.encode line :: more) =
      ((d.respond line).2.converseLines more).after (d.prompt ++ (d.respond line).1) := by
  rw [converseLines, Lines.decode?_encode]

theorem converseLines_of_invalid (d : Dialogue σ) {line : List UInt8}
    (h : Lines.decode? line = none) (more : List (List UInt8)) :
    d.converseLines (line :: more) = { output := d.prompt, error := some .invalidText } := by
  rw [converseLines, h]

/-- **The lines of a stream are heard one after the other.** -/
theorem converseLines_append (d : Dialogue σ) (lines : List String) (more : List (List UInt8)) :
    d.converseLines (lines.map Lines.encode ++ more) =
      ((d.hear lines).converseLines more).after (d.written lines) := by
  induction lines generalizing d with
  | nil => simp [hear, written, Transcript.after]
  | cons line lines ih =>
    rw [List.map_cons, List.cons_append, converseLines_encode_cons, ih, Transcript.after_after]
    rfl

theorem converseLines_map_encode (d : Dialogue σ) (lines : List String) :
    d.converseLines (lines.map Lines.encode) =
      { output := d.written lines ++ (d.hear lines).prompt } := by
  have happend := d.converseLines_append lines []
  rwa [List.append_nil] at happend

theorem converse_of_split {input : List UInt8} {lines : List String}
    (hlines : Lines.split input = lines.map Lines.encode) :
    converse input σ = { output := (start : Dialogue σ).written lines ++
      ((start : Dialogue σ).hear lines).prompt } := by
  rw [converse, hlines, converseLines_map_encode]

theorem exists_output_converseLines (d : Dialogue σ) (lines : List (List UInt8)) :
    ∃ more, (d.converseLines lines).output = d.prompt ++ more := by
  cases lines with
  | nil => exact ⟨"", (String.append_empty).symm⟩
  | cons line lines =>
    cases h : Lines.decode? line with
    | none =>
      rw [d.converseLines_of_invalid h]
      exact ⟨"", (String.append_empty).symm⟩
    | some text =>
      obtain rfl := Lines.decode?_eq_some_iff.1 h
      rw [converseLines_encode_cons, Transcript.after]
      exact ⟨_, String.append_assoc⟩

/-- **Dialogues at one stage go on alike**, whatever readings their calculators keep. -/
theorem converseLines_congr [LawfulStore σ] {d d' : Dialogue σ} (hd : d.calculator.Sound)
    (hd' : d'.calculator.Sound) (hstage : d.stage = d'.stage) (lines : List (List UInt8)) :
    d.converseLines lines = d'.converseLines lines := by
  have hprompt : d.prompt = d'.prompt := by rw [prompt, prompt, hstage]
  induction lines generalizing d d' with
  | nil => rw [converseLines, converseLines, hprompt]
  | cons line lines ih =>
    cases h : Lines.decode? line with
    | none => rw [d.converseLines_of_invalid h, d'.converseLines_of_invalid h, hprompt]
    | some text =>
      obtain rfl := Lines.decode?_eq_some_iff.1 h
      -- both calculators are sound, so the turns are the same one though the readings may differ
      obtain ⟨hturn, hsound⟩ := turn_respond hd text
      obtain ⟨hturn', hsound'⟩ := turn_respond hd' text
      rw [hstage] at hturn
      obtain ⟨hreply, hnext⟩ := hturn.unique hturn'
      rw [converseLines_encode_cons, converseLines_encode_cons, hprompt, hreply,
        ih hsound hsound' hnext (by rw [prompt, prompt, hnext])]

end

end Dialogue

end Formula
