import Formula.Calculator
import Formula.Proofs.Run
import Mathlib.Data.List.Nodup

/-!
# Sessions with a calculator

A calculator is asked for one thing after the other. All that its answers depend on are the readings
it keeps, and all that changes these is the reading of a formula.

* `Request`, `Answer`: what a calculator is asked for, and what it answers.
* `Calculator.respond`, `Calculator.run`, `Calculator.after`: one request, and a session.
* `Calculator.Reads`, **`reads_read`**: what the reading of a formula does to the readings that are
  kept.
* `Calculator.Sound`: each reading is that of its formula, and no formula has two; **`sound_run`**.
-/

namespace Formula

/-- What a calculator can be asked for. -/
inductive Request where
  | read (text : String)
  | evaluate (text : String) (values : Values)
  | evaluateAll (text : String) (cases : List Values)
  | clear

/-- The formula of the request, if it has one. -/
def Request.text? : Request → Option String
  | read text | evaluate text _ | evaluateAll text _ => some text
  | clear => none

/-- An answer to a request, where the tree of a formula comes as a `τ`. -/
inductive Answer (τ : Type) where
  | tree (result : Except ReadError τ)
  | value (result : Except Failure Float)
  | values (result : Except ReadError (List (Except EvalError Float)))
  | done
  deriving DecidableEq

/-- The answer with another thing in place of the tree. -/
def Answer.map {τ υ : Type} (f : τ → υ) : Answer τ → Answer υ
  | tree result => .tree (result.map f)
  | value result => .value result
  | values result => .values result
  | done => .done

namespace Calculator

open Store

variable {σ : Type} [Store σ String Reading]

/-- The readings that are kept, with their formulas, the one used last first. -/
def kept (c : Calculator σ) : List (String × Reading) :=
  entries c.recent

/-- The number of readings there is room for. -/
def room (c : Calculator σ) : Nat :=
  capacity c.recent

/-- The answer to a request, and the calculator afterwards. -/
def respond [Parallel] (c : Calculator σ) : Request → Answer Reading × Calculator σ
  | .read text => ((.tree (c.read text).1), (c.read text).2)
  | .evaluate text values => (.value (c.evaluate text values).1, (c.evaluate text values).2)
  | .evaluateAll text cases => (.values (c.evaluateAll text cases).1, (c.evaluateAll text cases).2)
  | .clear => (.done, c.clear)

/-- The answers of a session, and the calculator after it. -/
def run [Parallel] (c : Calculator σ) : List Request → List (Answer Reading) × Calculator σ
  | [] => ([], c)
  | request :: requests =>
    let (answer, c) := c.respond request
    let (answers, c) := c.run requests
    (answer :: answers, c)

/-- The calculator after a session that it began with no readings. -/
def after [Parallel] (capacity : Nat) (requests : List Request) : Calculator σ :=
  ((ofCapacity capacity).run requests).2

/-! ## One formula -/

theorem evaluate_eq (c : Calculator σ) (text : String) (values : Values) :
    c.evaluate text values = ((do
      let reading ← (c.read text).1.mapError .read
      (reading.expr.eval values).mapError .eval), (c.read text).2) := by
  unfold evaluate
  obtain ⟨_ | reading, c'⟩ := c.read text <;> rfl

theorem evaluateAll_eq [Parallel] (c : Calculator σ) (text : String) (cases : List Values) :
    c.evaluateAll text cases =
      ((c.read text).1.map fun reading => Parallel.map reading.expr.eval cases,
        (c.read text).2) := by
  unfold evaluateAll
  obtain ⟨_ | reading, c'⟩ := c.read text <;> rfl

/-- **What the reading of a formula does.** A reading that is kept is used. If there is none, a
formula that can be read gets a new one. -/
inductive Reads (c : Calculator σ) (text : String) :
    Except ReadError Reading → Calculator σ → Prop where
  | again {recent : σ} {reading : Reading} (h : c.kept.lookup text = some reading)
    (hkept : entries recent = (text, reading) :: c.kept.filter (·.1 ≠ text))
    (hroom : capacity recent = c.room) : Reads c text (.ok reading) ⟨recent, c.made⟩
  | failed {recent : σ} {e : ReadError} (h : c.kept.lookup text = none)
    (he : Expr.read text = .error e)
    (hkept : entries recent = c.kept) (hroom : capacity recent = c.room) :
    Reads c text (.error e) ⟨recent, c.made⟩
  | new {recent : σ} {expr : Expr} (h : c.kept.lookup text = none) (he : Expr.read text = .ok expr)
    (hkept : entries recent = ((text, ⟨c.made, expr⟩) :: c.kept).take c.room)
    (hroom : capacity recent = c.room) : Reads c text (.ok ⟨c.made, expr⟩) ⟨recent, c.made + 1⟩

theorem reads_read [LawfulStore σ] (c : Calculator σ) (text : String) :
    c.Reads text (c.read text).1 (c.read text).2 := by
  have hfound := LawfulStore.use_fst c.recent text
  have hroom := LawfulStore.capacity_use c.recent text
  unfold read
  split
  · next reading recent huse =>
    rw [huse] at hfound hroom
    have hkept := LawfulStore.entries_use_of_some hfound.symm
    rw [huse] at hkept
    exact .again hfound.symm hkept hroom
  · next recent huse =>
    rw [huse] at hfound hroom
    have hkept := LawfulStore.entries_use_of_none hfound.symm
    rw [huse] at hkept
    split
    · next e he => exact .failed hfound.symm he hkept hroom
    · next expr he =>
      -- the formula is not among the readings that are left after it has been looked for
      have hnone : (entries recent).lookup text = none := by rw [hkept, ← hfound]
      have hnew := LawfulStore.entries_insert_of_none hnone ⟨c.made, expr⟩
      rw [hkept, hroom] at hnew
      exact .new hfound.symm he hnew ((LawfulStore.capacity_insert ..).trans hroom)

theorem Reads.room_eq {c c' : Calculator σ} {text : String} {result : Except ReadError Reading}
    (h : c.Reads text result c') : c'.room = c.room := by
  cases h with
  | again _ _ hroom | failed _ _ _ hroom | new _ _ _ hroom => exact hroom

theorem Reads.of_lookup {c c' : Calculator σ} {text : String} {reading : Reading}
    {result : Except ReadError Reading} (h : c.Reads text result c')
    (hlookup : c.kept.lookup text = some reading) :
    result = .ok reading ∧ c'.kept = (text, reading) :: c.kept.filter (·.1 ≠ text) := by
  cases h with
  | again hfound hkept =>
    rw [hlookup] at hfound
    cases hfound
    exact ⟨rfl, hkept⟩
  | failed hnone | new hnone =>
    rw [hlookup] at hnone
    cases hnone

theorem Reads.exists_kept_eq {c c' : Calculator σ} {text : String} {reading : Reading}
    (h : c.Reads text (.ok reading) c') (hroom : 0 < c.room) :
    ∃ others, c'.kept = (text, reading) :: others := by
  cases h with
  | again _ hkept => exact ⟨_, hkept⟩
  | new _ _ hkept =>
    obtain ⟨n, hn⟩ := Nat.exists_eq_succ_of_ne_zero (Nat.ne_of_gt hroom)
    rw [hn, List.take_succ_cons] at hkept
    exact ⟨_, hkept⟩

/-! ## What the calculator keeps -/

/-- The formulas of the readings that are kept, the one used last first. -/
def texts (c : Calculator σ) : List String :=
  c.kept.map Prod.fst

/-- Each reading that is kept is that of its formula, no formula has two, and there is room for all.
-/
structure Sound (c : Calculator σ) : Prop where
  read_eq : ∀ entry ∈ c.kept, Expr.read entry.1 = .ok entry.2.expr
  nodup : c.texts.Nodup
  length_le : c.texts.length ≤ c.room

/-- The formula in front of all others. -/
def toFront (text : String) (texts : List String) : List String :=
  text :: texts.filter (· ≠ text)

theorem nodup_toFront {texts : List String} (h : texts.Nodup) (text : String) :
    (toFront text texts).Nodup := by
  rw [toFront, List.nodup_cons]
  exact ⟨by simp, h.filter _⟩

theorem length_toFront_le {texts : List String} {text : String} (h : text ∈ texts) :
    (toFront text texts).length ≤ texts.length := by
  have hlt : (texts.filter (· ≠ text)).length < texts.length :=
    List.length_filter_lt_length_iff_exists.2 ⟨text, h, by simp⟩
  exact hlt

section

variable {c c' : Calculator σ} {text : String} {result : Except ReadError Reading}

theorem mem_texts {reading : Reading} (hfound : c.kept.lookup text = some reading) :
    (text, reading) ∈ c.kept ∧ text ∈ c.texts := by
  obtain ⟨before, after, hsplit, -⟩ := List.lookup_eq_some_iff.1 hfound
  have hmem : (text, reading) ∈ c.kept := by simp [hsplit]
  exact ⟨hmem, List.mem_map_of_mem hmem⟩

theorem not_mem_texts (hnone : c.kept.lookup text = none) : text ∉ c.texts := by
  intro hmem
  obtain ⟨entry, hentry, rfl⟩ := List.mem_map.1 hmem
  exact absurd (List.lookup_eq_none_iff.1 hnone entry hentry) (by simp)

theorem Sound.lookup_eq (h : c.Sound) {reading : Reading} (hmem : (text, reading) ∈ c.kept) :
    c.kept.lookup text = some reading := by
  cases hfound : c.kept.lookup text with
  | none => exact absurd (List.mem_map_of_mem hmem) (not_mem_texts hfound)
  | some found =>
    have heq := List.inj_on_of_nodup_map h.nodup (mem_texts hfound).1 hmem rfl
    cases heq
    rfl

theorem Sound.kept_of_error (h : c.Sound) {e : ReadError} (he : Expr.read text = .error e)
    (hreads : c.Reads text result c') : c'.kept = c.kept := by
  cases hreads with
  | again hfound =>
    have := h.read_eq _ (mem_texts hfound).1
    rw [he] at this
    cases this
  | failed _ _ hkept => exact hkept
  | new _ hok =>
    rw [he] at hok
    cases hok

/-- **A formula that can be read is brought to the front**, be its reading kept or new. -/
theorem Sound.texts_of_ok (h : c.Sound) {expr : Expr} (hok : Expr.read text = .ok expr)
    (hreads : c.Reads text result c') : c'.texts = (toFront text c.texts).take c.room := by
  cases hreads with
  | @again recent reading hfound hkept =>
    have hle := Nat.le_trans (length_toFront_le (mem_texts hfound).2) h.length_le
    rw [List.take_of_length_le hle, texts, kept, hkept, toFront, texts, List.map_cons,
      List.filter_map]
    rfl
  | failed _ he =>
    rw [hok] at he
    cases he
  | @new recent expr hnone he hkept =>
    have hothers : c.texts.filter (· ≠ text) = c.texts := by
      refine List.filter_eq_self.2 fun other hmem => decide_eq_true ?_
      rintro rfl
      exact not_mem_texts hnone hmem
    rw [texts, kept, hkept, toFront, hothers, List.map_take]
    rfl

/-- **What is kept after a formula is read** was kept before, or is its new reading. -/
theorem Reads.mem_kept (h : c.Reads text result c') {entry : String × Reading}
    (hmem : entry ∈ c'.kept) :
    entry ∈ c.kept ∨ ∃ expr, Expr.read text = .ok expr ∧ entry = (text, ⟨c.made, expr⟩) ∧
      result = .ok ⟨c.made, expr⟩ ∧ c'.made = c.made + 1 := by
  cases h with
  | again hfound hkept =>
    rw [kept, hkept] at hmem
    rcases List.mem_cons.1 hmem with rfl | hmem
    · exact .inl (mem_texts hfound).1
    · exact .inl (List.mem_filter.1 hmem).1
  | failed _ _ hkept =>
    rw [kept, hkept] at hmem
    exact .inl hmem
  | new _ hok hkept =>
    rw [kept, hkept] at hmem
    rcases List.mem_cons.1 (List.mem_of_mem_take hmem) with rfl | hmem
    · exact .inr ⟨_, hok, rfl, rfl, rfl⟩
    · exact .inl hmem

theorem Sound.read_eq_reads (h : c.Sound) (hreads : c.Reads text result c') :
    ∀ entry ∈ c'.kept, Expr.read entry.1 = .ok entry.2.expr := by
  intro entry hmem
  obtain hmem | ⟨expr, hok, rfl, -⟩ := hreads.mem_kept hmem
  · exact h.read_eq entry hmem
  · exact hok

theorem Sound.reads (h : c.Sound) (hreads : c.Reads text result c') : c'.Sound := by
  have hroom := hreads.room_eq
  cases hread : Expr.read text with
  | error e =>
    have htexts : c'.texts = c.texts := congrArg (List.map Prod.fst) (h.kept_of_error hread hreads)
    refine ⟨h.read_eq_reads hreads, ?_, ?_⟩
    · rw [htexts]
      exact h.nodup
    · rw [htexts, hroom]
      exact h.length_le
  | ok expr =>
    have htexts := h.texts_of_ok hread hreads
    refine ⟨h.read_eq_reads hreads, ?_, ?_⟩
    · rw [htexts]
      exact (nodup_toFront h.nodup text).sublist (List.take_sublist ..)
    · rw [htexts, hroom]
      exact List.length_take_le ..

end

/-! ## Whole sessions -/

theorem sound_of_kept_eq_nil {c : Calculator σ} (h : c.kept = []) : c.Sound := by
  refine ⟨?_, ?_, ?_⟩ <;> simp [texts, h]

theorem respond_snd [Parallel] (c : Calculator σ) {request : Request} {text : String}
    (h : request.text? = some text) : (c.respond request).2 = (c.read text).2 := by
  cases request with
  | read =>
    cases h
    rfl
  | evaluate text values =>
    cases h
    rw [respond, evaluate_eq]
  | evaluateAll text cases =>
    cases h
    rw [respond, evaluateAll_eq]
  | clear => cases h

section

variable [LawfulStore σ]

theorem kept_ofCapacity (capacity : Nat) : (ofCapacity capacity : Calculator σ).kept = [] :=
  LawfulStore.entries_ofCapacity (by omega)

theorem room_ofCapacity (capacity : Nat) :
    (ofCapacity capacity : Calculator σ).room = max capacity 1 :=
  LawfulStore.capacity_ofCapacity (by omega)

theorem sound_ofCapacity (capacity : Nat) : (ofCapacity capacity : Calculator σ).Sound :=
  sound_of_kept_eq_nil (kept_ofCapacity capacity)

theorem kept_clear (c : Calculator σ) : c.clear.kept = [] :=
  LawfulStore.entries_clear c.recent

theorem room_clear (c : Calculator σ) : c.clear.room = c.room :=
  LawfulStore.capacity_clear c.recent

variable [Parallel]

/-- **What a request does to the calculator**: it reads one formula, or clears the store. -/
theorem respond_cases (c : Calculator σ) (request : Request) :
    (∃ text, request.text? = some text ∧ c.Reads text (c.read text).1 (c.respond request).2) ∨
      request = .clear ∧ (c.respond request).2 = c.clear := by
  cases htext : request.text? with
  | some text =>
    refine .inl ⟨text, rfl, ?_⟩
    rw [respond_snd c htext]
    exact reads_read c text
  | none =>
    cases request with
    | clear => exact .inr ⟨rfl, rfl⟩
    | read | evaluate | evaluateAll => cases htext

theorem reads_of_mem_kept {c : Calculator σ} {request : Request} {entry : String × Reading}
    (hmem : entry ∈ (c.respond request).2.kept) :
    ∃ text, request.text? = some text ∧ c.Reads text (c.read text).1 (c.respond request).2 := by
  obtain hreads | ⟨-, hclear⟩ := c.respond_cases request
  · exact hreads
  · rw [hclear, kept_clear] at hmem
    cases hmem

theorem room_respond (c : Calculator σ) (request : Request) :
    (c.respond request).2.room = c.room := by
  obtain ⟨text, -, hreads⟩ | ⟨-, hclear⟩ := c.respond_cases request
  · exact hreads.room_eq
  · rw [hclear, room_clear]

theorem Sound.respond {c : Calculator σ} (h : c.Sound) (request : Request) :
    (c.respond request).2.Sound := by
  obtain ⟨text, -, hreads⟩ | ⟨-, hclear⟩ := c.respond_cases request
  · exact h.reads hreads
  · rw [hclear]
    exact sound_of_kept_eq_nil (kept_clear c)

/-- **A session leaves the calculator sound**, with room for as many readings as before. -/
theorem Sound.run {c : Calculator σ} (h : c.Sound) (requests : List Request) :
    (c.run requests).2.Sound ∧ (c.run requests).2.room = c.room := by
  induction requests generalizing c with
  | nil => exact ⟨h, rfl⟩
  | cons request requests ih =>
    obtain ⟨hsound, hroom⟩ := ih (h.respond request)
    exact ⟨hsound, hroom.trans (room_respond c request)⟩

theorem sound_after (capacity : Nat) (requests : List Request) :
    (after capacity requests : Calculator σ).Sound :=
  ((sound_ofCapacity capacity).run requests).1

theorem room_after (capacity : Nat) (requests : List Request) :
    (after capacity requests : Calculator σ).room = max capacity 1 :=
  ((sound_ofCapacity capacity).run requests).2.trans (room_ofCapacity capacity)

end

theorem run_append [Parallel] (c : Calculator σ) (requests others : List Request) :
    c.run (requests ++ others) =
      ((c.run requests).1 ++ ((c.run requests).2.run others).1,
        ((c.run requests).2.run others).2) := by
  induction requests generalizing c with
  | nil => rfl
  | cons request requests ih => simp [run, ih]

theorem after_append [Parallel] (capacity : Nat) (requests others : List Request) :
    (after capacity (requests ++ others) : Calculator σ) =
      ((after capacity requests).run others).2 := by
  rw [after, run_append]
  rfl

theorem after_concat [Parallel] (capacity : Nat) (requests : List Request) (request : Request) :
    (after capacity (requests ++ [request]) : Calculator σ) =
      ((after capacity requests).respond request).2 :=
  after_append capacity requests [request]

theorem getElem?_run [Parallel] (c : Calculator σ) (requests : List Request) (i : Nat) :
    (c.run requests).1[i]? =
      requests[i]?.map fun request => ((c.run (requests.take i)).2.respond request).1 := by
  induction requests generalizing c i with
  | nil => rfl
  | cons request requests ih =>
    cases i with
    | zero => rfl
    | succ i => exact ih (c.respond request).2 i

end Calculator

end Formula
