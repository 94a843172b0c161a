import Formula.Proofs.Distinct
import Formula.Proofs.Session
import Mathlib.Data.List.Nodup
import Mathlib.Data.List.Induction

/-!
# Which readings are kept

The readings that a calculator keeps are those of the formulas used most recently, and it keeps as
many as there is room for.

* `usedTexts`: the formulas that a session has used since it cleared the store, each at its last
  use.
* `usedTexts_concat_of_ok`, `usedTexts_concat_of_error`: one request more.
* `take_toFront`: what is brought to the front does not depend on what there is no room for.
* **`texts_after`**: what the calculator keeps after a session.
-/

namespace Formula

/-! ## The formulas that a session has used -/

/-- The formula that the request uses. One that cannot be read is not used. -/
def Request.used? (request : Request) : Option String :=
  request.text?.filter fun text => (Expr.read text).isOk

/-- Whether the request clears the store. -/
def Request.isClear : Request → Bool
  | clear => true
  | read _ | evaluate _ _ | evaluateAll _ _ => false

/-- The formulas used since the store was last cleared, with the newest use first and no older use
of the same formula. -/
def usedTexts (requests : List Request) : List String :=
  ((requests.reverse.takeWhile fun request => !request.isClear).filterMap Request.used?).eraseDups

section

variable {α : Type} [DecidableEq α]

theorem take_filter_take {xs : List α} (h : xs.Nodup) (x : α) (n : Nat) :
    ((xs.take (n + 1)).filter (· ≠ x)).take n = (xs.filter (· ≠ x)).take n := by
  induction xs generalizing n with
  | nil => rfl
  | cons y xs ih =>
    obtain ⟨hy, hnodup⟩ := List.nodup_cons.1 h
    rw [List.take_succ_cons]
    by_cases heq : y = x
    · subst heq
      have hfilter (zs : List α) (hzs : y ∉ zs) : (y :: zs).filter (· ≠ y) = zs := by
        rw [List.filter_cons_of_neg (by simp)]
        refine List.filter_eq_self.2 fun z hz => decide_eq_true ?_
        rintro rfl
        exact hzs hz
      rw [hfilter _ hy, hfilter _ fun hmem => hy (List.mem_of_mem_take hmem), List.take_take,
        Nat.min_self]
    · cases n with
      | zero => rfl
      | succ n => simpa [heq] using ih hnodup n

end

section

variable {requests : List Request} {request : Request} {text : String}

theorem usedTexts_concat_clear (requests : List Request) :
    usedTexts (requests ++ [.clear]) = [] := by
  simp [usedTexts, Request.isClear]

theorem nodup_usedTexts (requests : List Request) : (usedTexts requests).Nodup :=
  nodup_eraseDups _

theorem isClear_of_text? (h : request.text? = some text) : request.isClear = false := by
  cases request with
  | clear => cases h
  | read | evaluate | evaluateAll => rfl

theorem used?_of_ok (h : request.text? = some text) {expr : Expr}
    (hok : Expr.read text = .ok expr) : request.used? = some text := by
  simp [Request.used?, h, hok, Except.toBool]

theorem usedTexts_concat_of_error (h : request.text? = some text) {e : ReadError}
    (he : Expr.read text = .error e) : usedTexts (requests ++ [request]) = usedTexts requests := by
  have hused : request.used? = none := by simp [Request.used?, h, he, Except.toBool]
  simp [usedTexts, isClear_of_text? h, hused]

theorem usedTexts_concat_of_ok (h : request.text? = some text) {expr : Expr}
    (hok : Expr.read text = .ok expr) :
    usedTexts (requests ++ [request]) = Calculator.toFront text (usedTexts requests) := by
  simp [usedTexts, isClear_of_text? h, used?_of_ok h hok, eraseDups_cons_eq, eraseDups_filter,
    Calculator.toFront]

end

/-! ## The formulas that are kept -/

theorem take_toFront {texts : List String} (h : texts.Nodup) (text : String) (n : Nat) :
    (Calculator.toFront text (texts.take n)).take n = (Calculator.toFront text texts).take n := by
  cases n with
  | zero => rfl
  | succ n =>
    rw [Calculator.toFront, Calculator.toFront, List.take_succ_cons, List.take_succ_cons,
      take_filter_take h]

namespace Calculator

section

variable {σ : Type} [Store σ String Reading] [LawfulStore σ] [Parallel]

/-- A formula that is read goes to the front, and one that cannot be read changes nothing. -/
theorem Sound.texts_respond {c : Calculator σ} (hc : c.Sound) {request : Request} {text : String}
    (h : request.text? = some text) :
    (∀ e, Expr.read text = .error e → (c.respond request).2.kept = c.kept) ∧
      ∀ expr, Expr.read text = .ok expr →
        (c.respond request).2.texts = (toFront text c.texts).take c.room := by
  have hreads := reads_read c text
  rw [respond_snd c h]
  exact ⟨fun e he => hc.kept_of_error he hreads, fun expr hok => hc.texts_of_ok hok hreads⟩

theorem texts_after_eq (capacity : Nat) (requests : List Request) :
    (after capacity requests : Calculator σ).texts =
      (usedTexts requests).take (max capacity 1) := by
  induction requests using List.reverseRecOn with
  | nil =>
    have hnil : (after capacity [] : Calculator σ).kept = [] := kept_ofCapacity capacity
    rw [texts, hnil]
    simp [usedTexts]
  | append_singleton requests request ih =>
    rw [after_concat]
    cases h : request.text? with
    | none =>
      obtain ⟨text, htext, -⟩ | ⟨rfl, hclear⟩ :=
        respond_cases (after capacity requests : Calculator σ) request
      · rw [h] at htext
        cases htext
      · rw [usedTexts_concat_clear, hclear, texts, kept_clear, List.map_nil, List.take_nil]
    | some text =>
      have hsound : (after capacity requests : Calculator σ).Sound := sound_after capacity requests
      obtain ⟨hfailed, hread⟩ := hsound.texts_respond h
      cases hexpr : Expr.read text with
      | error e => rw [usedTexts_concat_of_error h hexpr, texts, hfailed e hexpr, ← ih, texts]
      | ok expr =>
        rw [usedTexts_concat_of_ok h hexpr, hread expr hexpr, room_after, ih,
          take_toFront (nodup_usedTexts _)]

/-- **The readings that are kept are those of the formulas used most recently**, in the order of
their last use. A formula that cannot be read changes nothing. -/
theorem texts_after (capacity : Nat) (requests : List Request) :
    let c : Calculator σ := after capacity requests
    let m := max capacity 1
    c.texts = (usedTexts requests).take m ∧ c.texts.Nodup ∧
      c.size = min m (usedTexts requests).length ∧ c.size ≤ m ∧
      ∀ request text, request.text? = some text →
        (∀ e, Expr.read text = .error e → (c.respond request).2.kept = c.kept) ∧
          ∀ expr, Expr.read text = .ok expr →
            (c.respond request).2.texts = (text :: c.texts.filter (· ≠ text)).take m := by
  intro c m
  have htexts : c.texts = (usedTexts requests).take m := texts_after_eq capacity requests
  have hsize : c.size = c.texts.length := by
    rw [texts, List.length_map]
    exact LawfulStore.size_eq c.recent
  have hlength : c.size = min m (usedTexts requests).length := by
    rw [hsize, htexts, List.length_take]
  have hsound : c.Sound := sound_after capacity requests
  have hroom : c.room = m := room_after capacity requests
  refine ⟨htexts, hsound.nodup, hlength, ?_, fun request text h => ?_⟩
  · rw [hlength]
    exact Nat.min_le_left ..
  · have hnext := hsound.texts_respond h
    rw [hroom] at hnext
    exact hnext

end

/-- With room for two, `b` is forgotten for `c`, as `a` was used again, though it has no value. -/
theorem texts_after_two :
    let c : Calculator := after 2 [.read "x", .clear, .read "a", .read "b",
      .evaluate "a" .empty, .read "(", .evaluateAll "c" []]
    c.texts = ["c", "a"] ∧ c.size = 2 ∧ (c.respond (.read ")")).2.kept = c.kept ∧
      (c.respond (.evaluate "a" .empty)).2.texts = ["a", "c"] := by
  intro c
  obtain ⟨htexts, -, hsize, -, hnext⟩ :
    c.texts = _ ∧ _ ∧ c.size = _ ∧ _ ∧ ∀ request text, _ → _ := texts_after 2 _
  have hread : Expr.read "a" = .ok (.var "a") := by decide +kernel
  have hunread : Expr.read ")" = .error (.paren .unmatchedClose) := by decide +kernel
  have hca : c.texts = ["c", "a"] := htexts.trans (by decide +kernel)
  refine ⟨hca, hsize.trans (by decide +kernel), (hnext (.read ")") ")" rfl).1 _ hunread, ?_⟩
  rw [(hnext (.evaluate "a" .empty) "a" rfl).2 _ hread, hca]
  decide +kernel

end Calculator

end Formula
