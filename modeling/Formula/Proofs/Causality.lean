import Formula.Proofs.Turns

/-!
# Dialogues over longer inputs

A dialogue does not look ahead, and it does not look back beyond the formula that it is about.

* `stage_eq_formula_of_output`: what is asked for last shows what the next line is taken for.
* **`converse_append`**: what comes after the answer to a formula is a dialogue of its own.
* **`converse_causal`**: what is written for complete lines is written whatever comes behind them,
  and all that can break a dialogue off is a line that is no text.
* `exitCode_converse`: the exit code tells whether every line is a text.
-/

namespace Formula

namespace Dialogue

section

variable {σ : Type} [Store σ String Reading]

theorem converse_encode_append {text : String} {lines : List String}
    (hcomplete : Lines.Complete (Lines.encode text))
    (hlines : Lines.split (Lines.encode text) = lines.map Lines.encode) (more : List UInt8) :
    converse (Lines.encode text ++ more) σ =
      (((start : Dialogue σ).hear lines).converseLines (Lines.split more)).after
        ((start : Dialogue σ).written lines) := by
  rw [converse, Lines.split_append hcomplete, hlines, converseLines_append]

/-! ## No looking back -/

theorem stage_eq_formula_of_output {σ : Type} {d : Dialogue σ} {before asked : String}
    (h : before ++ d.prompt = asked ++ "Input expression: ") : d.stage = .formula := by
  cases hstage : d.stage with
  | formula => rfl
  | value e values name later =>
    exfalso
    -- a value is asked for with a blank behind an equals sign, a formula with one behind a colon
    rw [prompt, hstage] at h
    have hend := congrArg (fun text => text.toList.reverse.take 2) h
    simp at hend

/-- **What comes after the answer to a formula is a dialogue of its own.** When the lines of a text
leave a formula to be asked for, what follows is answered as if nothing had been before. -/
theorem converse_append [LawfulStore σ] {text asked : String}
    (hcomplete : Lines.Complete (Lines.encode text))
    (hasked : converse (Lines.encode text) σ = { output := asked ++ "Input expression: " })
    (more : List UInt8) :
    converse (Lines.encode text ++ more) σ = (converse more σ).after asked := by
  obtain ⟨lines, hlines⟩ := Lines.exists_split_encode text
  have houtput := congrArg Transcript.output ((converse_of_split hlines).symm.trans hasked)
  have hstage := stage_eq_formula_of_output houtput
  have hwritten : (start : Dialogue σ).written lines = asked := by
    rwa [prompt, hstage, String.append_left_inj] at houtput
  rw [converse_encode_append hcomplete hlines, hwritten, converse,
    converseLines_congr (sound_hear sound_start lines) sound_start hstage]

end

theorem converse_append_rejected :
    let asked := "Input expression: Parsed as: x\nValues required for evaluation...\n" ++
      "x = invalid float: abc\n" ++
      "Input expression: Parsed as: (1 / 0)\nEvaluation error: division by zero: 1 / 0\n"
    Lines.Complete (Lines.encode "x\nabc\n1/0\n") ∧
      converse (Lines.encode "x\nabc\n1/0\n") = { output := asked ++ "Input expression: " } ∧
      converse (Lines.encode "x\nabc\n1/0\n" ++ Lines.encode "x\n2") =
        (converse (Lines.encode "x\n2")).after asked := by
  intro asked
  have hcomplete : Lines.Complete (Lines.encode "x\nabc\n1/0\n") := .inr (by decide)
  have hasked : converse (Lines.encode "x\nabc\n1/0\n") =
      { output := asked ++ "Input expression: " } := by
    decide +kernel
  exact ⟨hcomplete, hasked, converse_append hcomplete hasked _⟩

/-! ## No looking ahead -/

section

variable {σ : Type} [Store σ String Reading]

/-- **What is written for complete lines is written whatever comes behind them.** All that can break
a dialogue off is a line that is no text. -/
theorem converse_causal :
    (∀ text more, Lines.Complete (Lines.encode text) →
      (∃ later, (converse (Lines.encode text ++ more) σ).output =
        (converse (Lines.encode text) σ).output ++ later) ∧
      (more ≠ [] → Lines.decode? (Lines.first more) = none →
        converse (Lines.encode text ++ more) σ =
          { output := (converse (Lines.encode text) σ).output, error := some .invalidText })) ∧
    ∀ input, (∃ lines : List String, Lines.split input = lines.map Lines.encode ∧
        converse input σ = { output := (start : Dialogue σ).written lines ++
          ((start : Dialogue σ).hear lines).prompt, error := none }) ∨
      ∃ text more, input = Lines.encode text ++ more ∧ Lines.Complete (Lines.encode text) ∧
        more ≠ [] ∧ Lines.decode? (Lines.first more) = none := by
  refine ⟨fun text more hcomplete => ?_, fun input => ?_⟩
  · obtain ⟨lines, hlines⟩ := Lines.exists_split_encode text
    rw [converse_encode_append hcomplete hlines, converse_of_split hlines]
    refine ⟨?_, fun hmore hnone => ?_⟩
    · obtain ⟨later, hlater⟩ :=
        exists_output_converseLines (start.hear lines : Dialogue σ) (Lines.split more)
      refine ⟨later, ?_⟩
      rw [Transcript.after, hlater, String.append_assoc]
    · rw [Lines.split_eq_cons hmore, converseLines_of_invalid _ hnone]
      rfl
  · obtain ⟨lines, hlines⟩ | hinvalid := Lines.split_cases input
    · exact .inl ⟨lines, hlines, converse_of_split hlines⟩
    · exact .inr hinvalid

end

theorem converse_causal_value :
    Lines.Complete (Lines.encode "x\n") ∧ Lines.decode? (Lines.first [255, 10]) = none ∧
      converse (Lines.encode "x\n" ++ [255, 10]) =
        { output := "Input expression: Parsed as: x\nValues required for evaluation...\nx = "
          error := some .invalidText } := by
  have hcomplete : Lines.Complete (Lines.encode "x\n") := .inr (by decide)
  have hnone : Lines.decode? (Lines.first [255, 10]) = none := by decide +kernel
  have hasked : (converse (Lines.encode "x\n")).output =
      "Input expression: Parsed as: x\nValues required for evaluation...\nx = " := by decide +kernel
  obtain ⟨-, hinvalid⟩ := (converse_causal (σ := Recent String Reading)).1 "x\n" [255, 10] hcomplete
  rw [hasked] at hinvalid
  exact ⟨hcomplete, hnone, hinvalid (by decide) hnone⟩

/-! ## Exit codes -/

section

variable {σ : Type} [Store σ String Reading]

theorem exitCode_converseLines (d : Dialogue σ) (lines : List (List UInt8)) :
    (d.converseLines lines).exitCode = 0 ↔ ∀ line ∈ lines, Lines.decode? line ≠ none := by
  induction lines generalizing d with
  | nil => simp [converseLines, Transcript.exitCode, exitCode]
  | cons line lines ih =>
    rw [List.forall_mem_cons]
    cases h : Lines.decode? line with
    | none => simp [d.converseLines_of_invalid h, Transcript.exitCode, exitCode]
    | some text =>
      obtain rfl := Lines.decode?_eq_some_iff.1 h
      rw [converseLines_encode_cons, Transcript.exitCode_after, ih]
      simp

theorem exitCode_converse (input : List UInt8) :
    (converse input σ).exitCode = 0 ↔ ∀ line ∈ Lines.split input, Lines.decode? line ≠ none :=
  exitCode_converseLines start _

end

end Dialogue

end Formula
