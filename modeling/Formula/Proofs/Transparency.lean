import Formula.Proofs.Session

/-!
# Answers do not depend on what is kept

A calculator that keeps readings gives the answers that one without them would give.

* `Request.answer`: the answer with no calculator at all.
* `Calculator.Sound.respond_fst`: what a sound calculator answers to one request.
* **`answers_run`**: what a calculator answers in a session.
-/

namespace Formula

/-- The answer to the request when every formula is read anew. -/
def Request.answer : Request → Answer Expr
  | read text => .tree (Expr.read text)
  | evaluate text values => .value (Formula.evaluate text values)
  | evaluateAll text cases => .values ((Expr.read text).map fun e => cases.map e.eval)
  | clear => .done

namespace Calculator

section

variable {σ : Type} [Store σ String Reading]

theorem Sound.map_reads {c c' : Calculator σ} {text : String} {result : Except ReadError Reading}
    (h : c.Sound) (hreads : c.Reads text result c') : result.map Reading.expr = Expr.read text := by
  cases hreads with
  | again hfound => exact (h.read_eq _ (mem_texts hfound).1).symm
  | failed _ he => exact he.symm
  | new _ hok => exact hok.symm

theorem Sound.map_read [LawfulStore σ] {c : Calculator σ} (h : c.Sound) (text : String) :
    (c.read text).1.map Reading.expr = Expr.read text :=
  h.map_reads (reads_read c text)

theorem map_eq [Parallel] [LawfulParallel] {α β : Type} (f : α → β) (xs : List α) :
    Parallel.map f xs = xs.map f := by
  apply List.ext_getElem?
  intro i
  rw [LawfulParallel.getElem?_map, List.getElem?_map]

variable [LawfulStore σ] [Parallel] [LawfulParallel]

theorem Sound.respond_fst {c : Calculator σ} (h : c.Sound) (request : Request) :
    (c.respond request).1.map Reading.expr = request.answer := by
  cases request with
  | read text => exact congrArg Answer.tree (h.map_read text)
  | evaluate text values =>
    rw [Calculator.respond, evaluate_eq, Request.answer, Formula.evaluate, ← h.map_read]
    cases (c.read text).1 <;> rfl
  | evaluateAll text cases =>
    rw [Calculator.respond, evaluateAll_eq, Request.answer, ← h.map_read]
    cases (c.read text).1 with
    | error e => rfl
    | ok reading =>
      simp only [Except.map, Answer.map, map_eq]
  | clear => rfl

theorem Sound.run_fst {c : Calculator σ} (h : c.Sound) (requests : List Request) :
    (c.run requests).1.map (Answer.map Reading.expr) = requests.map Request.answer := by
  induction requests generalizing c with
  | nil => rfl
  | cons request requests ih =>
    rw [List.map_cons, ← h.respond_fst request, ← ih (h.respond request)]
    rfl

/-- **A calculator answers every request of a session as if it kept nothing.** -/
theorem answers_run (capacity : Nat) (requests : List Request) :
    ((ofCapacity capacity : Calculator σ).run requests).1.map (Answer.map Reading.expr) =
      requests.map Request.answer :=
  (sound_ofCapacity capacity).run_fst requests

end

/-- With room for one reading, that of `x` is forgotten and made again, with the same answers. -/
theorem answers_run_forgetting :
    ((ofCapacity 0 : Calculator).run [.read "x", .evaluate "1/y" .empty, .read "(", .clear,
        .evaluateAll "x" [.empty, .ofList [("x", 2)]], .read "x"]).1.map (Answer.map Reading.expr) =
      [.tree (.ok (.var "x")), .value (.error (.eval (.unboundName "y"))),
        .tree (.error (.paren .unclosedOpen)), .done,
        .values (.ok [.error (.unboundName "x"), .ok 2]), .tree (.ok (.var "x"))] := by
  rw [answers_run]
  decide +kernel

end Calculator

end Formula
