import Formula.Proofs.Recency
import Formula.Proofs.Transparency

/-!
# Readings that are handed out again

A calculator hands out the same reading of a formula as long as it keeps it. It keeps it as long as
the store is not cleared and the formula is used again before too many others are.

* `StaysInUse`: the formula is used again and again, with few others in between.
* `mem_take_usedTexts`: whether a formula is among the last ones used.
* `Calculator.Issued`: the number of a reading is its own; `Calculator.Issued.respond`.
* `Calculator.mem_kept_run`: what is kept was there before or has been made since, so that a reading
  that has been forgotten does not come back; `Calculator.Issued.mem_of_run`.
* `Calculator.mem_kept_iff_staysInUse`: whether a reading is still kept after a session.
* **`same_reading_iff`**: when two requests for a formula get the same reading.
-/

namespace Formula

/-! ## Formulas that stay in use -/

/-- The formula is used again each time before `room` other formulas have been used, and the store
is not cleared. The requests come behind a use of the formula and before another one. -/
def StaysInUse (room : Nat) (text : String) (requests : List Request) : Prop :=
  .clear ∉ requests ∧ ∀ gap ∈ requests.splitOnP (·.used? == some text),
    (gap.filterMap Request.used?).eraseDups.length < room

section

variable {room : Nat} {text : String} {gap rest : List Request} {use : Request}

theorem staysInUse_of_unused (hgap : ∀ r ∈ gap, r.used? ≠ some text) : StaysInUse room text gap ↔
    .clear ∉ gap ∧ (gap.filterMap Request.used?).eraseDups.length < room := by
  have hsplit : gap.splitOnP (·.used? == some text) = [gap] :=
    List.splitOnP_eq_singleton fun r hr => by simpa using hgap r hr
  rw [StaysInUse, hsplit, List.forall_mem_singleton]

theorem staysInUse_append (huse : use.used? = some text) :
    StaysInUse room text (gap ++ use :: rest) ↔
    StaysInUse room text gap ∧ StaysInUse room text rest := by
  have hsplit : (gap ++ use :: rest).splitOnP (·.used? == some text) =
      gap.splitOnP (·.used? == some text) ++ rest.splitOnP (·.used? == some text) :=
    List.splitOnP_append_cons gap rest (by simp [huse])
  have hopen : .clear ≠ use := by
    rintro rfl
    cases huse
  simp only [StaysInUse, hsplit, List.mem_append, List.mem_cons, hopen, false_or, not_or, or_imp,
    forall_and]
  exact and_and_and_comm

end

theorem take_eq_append_cons {α : Type} {xs : List α} {x : α} {i j : Nat} (hij : i < j)
    (hi : xs[i]? = some x) : xs.take j = xs.take i ++ x :: (xs.take j).drop (i + 1) := by
  obtain ⟨hlt, hget⟩ := List.getElem?_eq_some_iff.1 ((List.getElem?_take_of_lt hij).trans hi)
  have htake : (xs.take j).take i = xs.take i := by
    rw [List.take_take, Nat.min_eq_left (Nat.le_of_lt hij)]
  calc xs.take j = (xs.take j).take i ++ (xs.take j).drop i := (List.take_append_drop ..).symm
    _ = xs.take i ++ x :: (xs.take j).drop (i + 1) := by
      rw [htake, List.drop_eq_getElem_cons hlt, hget]

theorem mem_take_append_cons {α : Type} {x : α} {before after : List α} (h : x ∉ before) {n : Nat} :
    x ∈ (before ++ x :: after).take n ↔ before.length < n := by
  rw [List.take_append, List.mem_append]
  constructor
  · rintro (hmem | hmem)
    · exact absurd (List.mem_of_mem_take hmem) h
    · by_contra hle
      rw [Nat.sub_eq_zero_of_le (Nat.not_lt.1 hle), List.take_zero] at hmem
      cases hmem
  · intro hlt
    obtain ⟨k, hk⟩ := Nat.exists_eq_succ_of_ne_zero (Nat.sub_ne_zero_of_lt hlt)
    rw [hk, List.take_succ_cons]
    exact .inr (List.mem_cons_self ..)

section

variable {text : String} {gap : List Request} {first : Request}

theorem text?_of_used? (h : first.used? = some text) : first.text? = some text :=
  (Option.filter_eq_some_iff.1 h).1

theorem not_mem_filterMap_used? (hgap : ∀ r ∈ gap, r.used? ≠ some text) :
    text ∉ gap.filterMap Request.used? := by
  intro hmem
  obtain ⟨r, hr, hused⟩ := List.mem_filterMap.1 hmem
  exact hgap r hr hused

theorem exists_usedTexts_eq (before : List Request) (hfirst : first.used? = some text)
    (hgap : ∀ r ∈ gap, r.used? ≠ some text) (hclear : .clear ∉ gap) :
    ∃ older, usedTexts (before ++ first :: gap) =
      (gap.filterMap Request.used?).reverse.eraseDups ++ text :: older := by
  have hopen : ∀ r ∈ gap.reverse, (!r.isClear) = true := by
    intro r hr
    cases r with
    | clear => exact absurd (List.mem_reverse.1 hr) hclear
    | read | evaluate | evaluateAll => rfl
  have hused : ((first :: before.reverse).takeWhile fun r => !r.isClear) =
      first :: before.reverse.takeWhile fun r => !r.isClear := by
    simp [isClear_of_text? (text?_of_used? hfirst)]
  have hnew : decide (text ∉ (gap.filterMap Request.used?).reverse) = true := by
    simpa using not_mem_filterMap_used? hgap
  rw [usedTexts, List.reverse_append, List.reverse_cons, List.append_assoc,
    List.takeWhile_append_of_pos hopen, List.singleton_append, hused, List.filterMap_append,
    List.filterMap_cons_some hfirst, List.filterMap_reverse, eraseDups_append_eq,
    List.filter_cons, if_pos hnew, eraseDups_cons_eq]
  exact ⟨_, rfl⟩

theorem not_mem_usedTexts (before : List Request) (hgap : ∀ r ∈ gap, r.used? ≠ some text)
    (hclear : .clear ∈ gap) : text ∉ usedTexts (before ++ first :: gap) := by
  obtain ⟨early, late, rfl⟩ := List.append_of_mem hclear
  have hsplit : (before ++ first :: (early ++ .clear :: late)).reverse =
      late.reverse ++ .clear :: (before ++ first :: early).reverse := by simp
  have hlate : ∀ r ∈ (late.reverse ++ .clear :: (before ++ first :: early).reverse).takeWhile
      (fun r => !r.isClear), r ∈ late := by
    intro r hr
    rw [List.takeWhile_append] at hr
    split at hr
    · rw [List.takeWhile_cons_of_neg (by simp [Request.isClear]), List.append_nil] at hr
      exact List.mem_reverse.1 hr
    · exact List.mem_reverse.1 ((List.takeWhile_sublist _).subset hr)
  rw [usedTexts, hsplit, List.mem_eraseDups, List.mem_filterMap]
  rintro ⟨r, hr, hused⟩
  exact hgap r (by simp [hlate r hr]) hused

/-- **A formula is among the last ones used** if the store was not cleared since it was used itself,
and not too many others were used. -/
theorem mem_take_usedTexts (before : List Request) (hfirst : first.used? = some text)
    (hgap : ∀ r ∈ gap, r.used? ≠ some text) {room : Nat} :
    text ∈ (usedTexts (before ++ first :: gap)).take room ↔
      .clear ∉ gap ∧ (gap.filterMap Request.used?).eraseDups.length < room := by
  by_cases hclear : .clear ∈ gap
  · refine iff_of_false (fun hmem => ?_) fun h => h.1 hclear
    exact not_mem_usedTexts before hgap hclear (List.mem_of_mem_take hmem)
  · obtain ⟨older, heq⟩ := exists_usedTexts_eq before hfirst hgap hclear
    have hnew : text ∉ (gap.filterMap Request.used?).reverse.eraseDups := by
      rw [List.mem_eraseDups, List.mem_reverse]
      exact not_mem_filterMap_used? hgap
    rw [heq, mem_take_append_cons hnew, length_eraseDups_of_perm (List.reverse_perm _),
      and_iff_right hclear]

end

namespace Calculator

section

variable {σ : Type} [Store σ String Reading] {c c' : Calculator σ} {text other : String}
  {reading : Reading} {result : Except ReadError Reading}

/-! ## Numbers of readings -/

/-- The calculator has made the reading for the formula, and keeps no other one with its number. -/
structure Issued (c : Calculator σ) (text : String) (reading : Reading) : Prop where
  serial_lt : reading.serial < c.made
  unique : ∀ entry ∈ c.kept, entry.2.serial = reading.serial → entry = (text, reading)

theorem Reads.made_le (h : c.Reads text result c') : c.made ≤ c'.made := by
  cases h with
  | again | failed => exact Nat.le_refl _
  | new => exact Nat.le_succ _

theorem Issued.reads (h : c.Issued other reading) (hreads : c.Reads text result c') :
    c'.Issued other reading := by
  have hlt := h.serial_lt
  refine ⟨Nat.lt_of_lt_of_le hlt hreads.made_le, fun entry hmem hserial => ?_⟩
  obtain hmem | ⟨expr, -, rfl, -⟩ := hreads.mem_kept hmem
  · exact h.unique entry hmem hserial
  · simp only at hserial
    omega

/-- Every reading that is kept has a number of its own. -/
def Numbered (c : Calculator σ) : Prop :=
  ∀ entry ∈ c.kept, c.Issued entry.1 entry.2

theorem Numbered.issued (h : c.Numbered) (hreads : c.Reads text (.ok reading) c') :
    c'.Issued text reading := by
  cases hreads with
  | again hfound hkept hroom => exact (h _ (mem_texts hfound).1).reads (.again hfound hkept hroom)
  | new hnone hok hkept hroom =>
    refine ⟨Nat.lt_succ_self _, fun entry hmem hserial => ?_⟩
    obtain hmem | ⟨expr, hok', rfl, -⟩ := (Reads.new hnone hok hkept hroom).mem_kept hmem
    · exact absurd (h entry hmem).serial_lt (hserial ▸ Nat.lt_irrefl _)
    · rw [hok] at hok'
      cases hok'
      rfl

theorem Numbered.reads (h : c.Numbered) (hreads : c.Reads text result c') : c'.Numbered := by
  intro entry hmem
  obtain hmem | ⟨expr, -, rfl, rfl, -⟩ := hreads.mem_kept hmem
  · exact (h entry hmem).reads hreads
  · exact h.issued hreads

theorem Sound.reads_of_mem (h : c.Sound) (hmem : (text, reading) ∈ c.kept)
    (hreads : c.Reads text result c') : result = .ok reading ∧ (text, reading) ∈ c'.kept := by
  obtain ⟨hresult, hkept⟩ := hreads.of_lookup (h.lookup_eq hmem)
  rw [hkept]
  exact ⟨hresult, List.mem_cons_self ..⟩

theorem Issued.serial_eq_iff (h : c.Issued text reading) (hc : c.Sound) {found : Reading}
    (hreads : c.Reads other (.ok found) c') :
    reading.serial = found.serial ↔ text = other ∧ (text, reading) ∈ c.kept := by
  constructor
  · intro hserial
    cases hreads with
    | again hfound =>
      have hmem := (mem_texts hfound).1
      cases h.unique _ hmem hserial.symm
      exact ⟨rfl, hmem⟩
    | new => exact absurd h.serial_lt (hserial ▸ Nat.lt_irrefl _)
  · rintro ⟨rfl, hmem⟩
    cases (hc.reads_of_mem hmem hreads).1
    rfl

/-! ## Whole sessions -/

variable [LawfulStore σ] [Parallel]

theorem made_le_respond (c : Calculator σ) (request : Request) :
    c.made ≤ (c.respond request).2.made := by
  obtain ⟨text, -, hreads⟩ | ⟨-, hclear⟩ := c.respond_cases request
  · exact hreads.made_le
  · rw [hclear]
    exact Nat.le_refl _

/-- **What is kept after a session** was kept before, or made in it for a formula that it uses. -/
theorem mem_kept_run {requests : List Request} {entry : String × Reading}
    (hmem : entry ∈ (c.run requests).2.kept) :
    entry ∈ c.kept ∨ (∃ request ∈ requests, request.used? = some entry.1) ∧
      c.made ≤ entry.2.serial := by
  induction requests generalizing c with
  | nil => exact .inl hmem
  | cons request requests ih =>
    have hmem : entry ∈ ((c.respond request).2.run requests).2.kept := hmem
    obtain hmem | ⟨⟨later, hlater, hused⟩, hle⟩ := ih hmem
    · obtain ⟨text, htext, hreads⟩ := reads_of_mem_kept hmem
      obtain hmem | ⟨expr, hok, rfl, -⟩ := hreads.mem_kept hmem
      · exact .inl hmem
      · exact .inr ⟨⟨request, List.mem_cons_self .., used?_of_ok htext hok⟩, Nat.le_refl _⟩
    · exact .inr ⟨⟨later, List.mem_cons_of_mem _ hlater, hused⟩,
        Nat.le_trans (made_le_respond c request) hle⟩

theorem Issued.respond (h : c.Issued text reading) (request : Request) :
    (c.respond request).2.Issued text reading := by
  obtain ⟨other, -, hreads⟩ | ⟨-, hclear⟩ := c.respond_cases request
  · exact h.reads hreads
  · rw [hclear]
    refine ⟨h.serial_lt, fun entry hmem => ?_⟩
    rw [kept_clear] at hmem
    cases hmem

theorem Issued.run (h : c.Issued text reading) (requests : List Request) :
    (c.run requests).2.Issued text reading := by
  induction requests generalizing c with
  | nil => exact h
  | cons request requests ih => exact ih (h.respond request)

/-- **A reading that has been forgotten does not come back**, since new ones get other numbers. -/
theorem Issued.mem_of_run (h : c.Issued text reading) {requests : List Request}
    (hmem : (text, reading) ∈ (c.run requests).2.kept) : (text, reading) ∈ c.kept := by
  obtain hmem | ⟨-, hle⟩ := mem_kept_run hmem
  · exact hmem
  · exact absurd h.serial_lt (Nat.not_lt.2 hle)

theorem numbered_after (capacity : Nat) (requests : List Request) :
    (after capacity requests : Calculator σ).Numbered := by
  induction requests using List.reverseRecOn with
  | nil =>
    intro entry hmem
    have hnil : (after capacity [] : Calculator σ).kept = [] := kept_ofCapacity capacity
    rw [hnil] at hmem
    cases hmem
  | append_singleton requests request ih =>
    rw [after_concat]
    intro entry hmem
    obtain ⟨other, -, hreads⟩ := reads_of_mem_kept hmem
    exact ih.reads hreads entry hmem

theorem mem_of_run_of_unused {gap : List Request} (hgap : ∀ r ∈ gap, r.used? ≠ some text)
    (hmem : (text, reading) ∈ (c.run gap).2.kept) : (text, reading) ∈ c.kept := by
  obtain hmem | ⟨⟨r, hr, hused⟩, -⟩ := mem_kept_run hmem
  · exact hmem
  · exact absurd hused (hgap r hr)

/-! ## Uses in a row -/

theorem Sound.mem_respond (h : c.Sound) (hmem : (text, reading) ∈ c.kept) {use : Request}
    (huse : use.used? = some text) : (text, reading) ∈ (c.respond use).2.kept := by
  rw [respond_snd c (text?_of_used? huse)]
  exact (h.reads_of_mem hmem (reads_read c text)).2

theorem mem_kept_iff_of_unused (capacity : Nat) {before gap : List Request} {first : Request}
    (hfirst : first.used? = some text) (hgap : ∀ r ∈ gap, r.used? ≠ some text)
    (hmem : (text, reading) ∈ (after capacity (before ++ [first]) : Calculator σ).kept) :
    (text, reading) ∈ (after capacity (before ++ first :: gap) : Calculator σ).kept ↔
      StaysInUse (max capacity 1) text gap := by
  have htexts : (after capacity (before ++ first :: gap) : Calculator σ).texts =
      (usedTexts (before ++ first :: gap)).take (max capacity 1) := texts_after_eq ..
  rw [staysInUse_of_unused hgap, ← mem_take_usedTexts before hfirst hgap, ← htexts]
  refine ⟨fun h => List.mem_map_of_mem (f := Prod.fst) h, fun h => ?_⟩
  obtain ⟨⟨_, found⟩, hfound, rfl⟩ := List.mem_map.1 h
  -- the formula was not used in between, so this is the reading it had before
  have hsound : (after capacity (before ++ [first]) : Calculator σ).Sound := sound_after _ _
  have hbefore := hfound
  rw [List.append_cons, after_append] at hbefore
  have hsame := hsound.lookup_eq (mem_of_run_of_unused hgap hbefore)
  rw [hsound.lookup_eq hmem] at hsame
  cases hsame
  exact hfound

/-- **A reading is still kept if its formula stays in use.** The requests are split at the uses of
the formula; where it is forgotten at one of them, the reading does not come back. -/
theorem mem_kept_iff_staysInUse (capacity : Nat) {before middle : List Request} {first : Request}
    (hfirst : first.used? = some text)
    (hissued : (after capacity (before ++ [first]) : Calculator σ).Issued text reading)
    (hmem : (text, reading) ∈ (after capacity (before ++ [first]) : Calculator σ).kept) :
    (text, reading) ∈ (after capacity (before ++ first :: middle) : Calculator σ).kept ↔
      StaysInUse (max capacity 1) text middle := by
  cases hfind : middle.find? (·.used? == some text) with
  | none =>
    have hgap : ∀ r ∈ middle, r.used? ≠ some text := by simpa using List.find?_eq_none.1 hfind
    exact mem_kept_iff_of_unused capacity hfirst hgap hmem
  | some use =>
    obtain ⟨huse, gap, rest, hmiddle, hgap⟩ := List.find?_eq_some_iff_append.1 hfind
    have hlt : rest.length < middle.length := by
      rw [hmiddle, List.length_append, List.length_cons]
      omega
    replace huse : use.used? = some text := by simpa using huse
    replace hgap : ∀ r ∈ gap, r.used? ≠ some text := by simpa using hgap
    have hissued' :
        (after capacity (before ++ first :: gap) : Calculator σ).Issued text reading := by
      rw [List.append_cons, after_append]
      exact hissued.run gap
    have hsplit : before ++ first :: (gap ++ use :: rest) =
        before ++ first :: gap ++ use :: rest := by simp
    rw [hmiddle, staysInUse_append huse, ← mem_kept_iff_of_unused capacity hfirst hgap hmem, hsplit]
    by_cases hin : (text, reading) ∈ (after capacity (before ++ first :: gap) : Calculator σ).kept
    · -- the use finds the reading, and all begins anew behind it
      rw [and_iff_right hin]
      refine mem_kept_iff_staysInUse capacity huse ?_ ?_
      · rw [after_concat]
        exact hissued'.respond use
      · rw [after_concat]
        exact (sound_after ..).mem_respond hin huse
    · refine iff_of_false (fun hback => hin ?_) fun h => hin h.1
      rw [after_append] at hback
      exact hissued'.mem_of_run hback
termination_by middle.length
decreasing_by exact hlt

theorem serial_eq_iff_staysInUse (capacity : Nat) {before middle : List Request}
    {first second : Reading}
    (hfirst : ((after capacity before : Calculator σ).read text).1 = .ok first)
    (hsecond : ((after capacity (before ++ .read text :: middle) : Calculator σ).read other).1 =
      .ok second) :
    first.serial = second.serial ↔ text = other ∧ StaysInUse (max capacity 1) text middle := by
  have hsound : (after capacity before : Calculator σ).Sound := sound_after capacity before
  have hreads := reads_read (after capacity before : Calculator σ) text
  have hnext : ((after capacity before : Calculator σ).read text).2 =
      after capacity (before ++ [.read text]) := by
    rw [after_concat]
    rfl
  rw [hfirst, hnext] at hreads
  have hused : (Request.read text).used? = some text :=
    used?_of_ok rfl (hsound.map_reads hreads).symm
  have hissued := (numbered_after capacity before).issued hreads
  obtain ⟨others, hkept⟩ := hreads.exists_kept_eq (by rw [room_after]; omega)
  have hmem : (text, first) ∈ (after capacity (before ++ [.read text]) : Calculator σ).kept := by
    rw [hkept]
    exact List.mem_cons_self ..
  have hissued' :
      (after capacity (before ++ .read text :: middle) : Calculator σ).Issued text first := by
    rw [List.append_cons, after_append]
    exact hissued.run middle
  have hreads' := reads_read (after capacity (before ++ .read text :: middle) : Calculator σ) other
  rw [hsecond] at hreads'
  rw [← mem_kept_iff_staysInUse capacity hused hissued hmem]
  exact hissued'.serial_eq_iff (sound_after ..) hreads'

/-- **Two requests for a formula get the very same reading** exactly if it can be read and has
stayed in use between them. Else its two readings have the same tree. -/
theorem same_reading_iff (capacity : Nat) {requests : List Request} {i j : Nat}
    {text other : String}
    (hij : i < j) (hi : requests[i]? = some (.read text)) (hj : requests[j]? = some (.read other)) :
    let answers := ((ofCapacity capacity : Calculator σ).run requests).1
    let between := (requests.take j).drop (i + 1)
    ((∃ first second, answers[i]? = some (.tree (.ok first)) ∧
        answers[j]? = some (.tree (.ok second)) ∧
        first.serial = second.serial) ↔
      text = other ∧ (∃ e, Expr.read text = .ok e) ∧ StaysInUse (max capacity 1) text between) ∧
    (text = other → ∀ first second, answers[i]? = some (.tree (.ok first)) →
      answers[j]? = some (.tree (.ok second)) → first.expr = second.expr) := by
  intro answers between
  have hsplit : requests.take j = requests.take i ++ .read text :: between :=
    take_eq_append_cons hij hi
  have hfirst : answers[i]? =
      some (.tree ((after capacity (requests.take i) : Calculator σ).read text).1) := by
    rw [getElem?_run, hi]
    rfl
  have hsecond : answers[j]? =
      some (.tree ((after capacity (requests.take i ++ .read text :: between) :
        Calculator σ).read other).1) := by
    rw [getElem?_run, hj, hsplit]
    rfl
  have hread (requests : List Request) :
      ((after capacity requests : Calculator σ).read text).1.map Reading.expr = Expr.read text :=
    (sound_after capacity requests).map_read text
  simp only [hfirst, hsecond, Option.some.injEq, Answer.tree.injEq]
  refine ⟨⟨?_, ?_⟩, ?_⟩
  · rintro ⟨first, second, hfirst, hsecond, hserial⟩
    obtain ⟨heq, hstays⟩ := (serial_eq_iff_staysInUse capacity hfirst hsecond).1 hserial
    have hok := hread (requests.take i)
    rw [hfirst] at hok
    exact ⟨heq, ⟨_, hok.symm⟩, hstays⟩
  · rintro ⟨rfl, ⟨e, he⟩, hstays⟩
    obtain ⟨first, hfirst, -⟩ := map_eq_ok_iff.1 ((hread _).trans he)
    obtain ⟨second, hsecond, -⟩ := map_eq_ok_iff.1 ((hread _).trans he)
    exact ⟨first, second, hfirst, hsecond,
      (serial_eq_iff_staysInUse capacity hfirst hsecond).2 ⟨rfl, hstays⟩⟩
  · rintro rfl first second hfirst hsecond
    have hsame := (hread (requests.take i)).trans
      (hread (requests.take i ++ .read text :: between)).symm
    rw [hfirst, hsecond] at hsame
    exact Except.ok.inj hsame

end

/-- With room for two, `x` outlives `y` and then `y + 1`, since it is used between them, though not
read. Both `y` and `z` are too much for it. -/
theorem same_reading_iff_two :
    let answers := ((ofCapacity 2 : Calculator).run [.read "x", .evaluate "y" .empty, .read "(",
      .evaluateAll "x" [], .read "y + 1", .read "x", .read "y", .read "z", .read "x"]).1
    (∃ first second, answers[0]? = some (.tree (.ok first)) ∧
        answers[5]? = some (.tree (.ok second)) ∧
        first.serial = second.serial) ∧
      ¬ ∃ first second, answers[5]? = some (.tree (.ok first)) ∧
        answers[8]? = some (.tree (.ok second)) ∧
        first.serial = second.serial := by
  intro answers
  have hread : Expr.read "x" = .ok (.var "x") := by decide +kernel
  have hkept : StaysInUse 2 "x" [.evaluate "y" .empty, .read "(", .evaluateAll "x" [],
      .read "y + 1"] :=
    ⟨by simp, by decide +kernel⟩
  have hforgotten : ¬ StaysInUse 2 "x" [.read "y", .read "z"] :=
    fun h => absurd h.2 (by decide +kernel)
  refine ⟨(same_reading_iff 2 (i := 0) (j := 5) (by decide) rfl rfl).1.2 ⟨rfl, ⟨_, hread⟩, hkept⟩,
    fun h => ?_⟩
  exact hforgotten ((same_reading_iff 2 (i := 5) (j := 8) (by decide) rfl rfl).1.1 h).2.2

end Calculator

end Formula
