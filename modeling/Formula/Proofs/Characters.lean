import Formula.Token.Scanner

/-!
# Kinds of characters

A character may be alphabetic, a digit, blank, or a mark that is a token by itself, but only one of
these.

* `isDigit_of_isAlphabetic`, `isBlank_of_isAlphabetic`, `isBlank_of_isDigit`: the kinds exclude each
  other.
* `marks`, `mark?`: the marks and their tokens.
* **`reserved_alone`**: nothing longer than one character is a mark.
-/

namespace Formula

variable {c : Char}

/-! ## Ranges -/

theorem toNat_of_isDigit (h : c.isDigit = true) : 48 ≤ c.toNat ∧ c.toNat ≤ 57 := by
  simp only [Char.isDigit, Bool.and_eq_true, decide_eq_true_eq, ge_iff_le,
    UInt32.le_iff_toNat_le] at h
  exact h

theorem alphabeticRanges_apart {range : CharRange} (h : range ∈ alphabeticRanges) :
    0x41 ≤ range.first ∧
      ∀ blank ∈ blankRanges, range.last < blank.first ∨ blank.last < range.first := by
  -- the whole table is checked at once, with comparisons that the kernel is fast at
  have hall : alphabeticRanges.all (fun range => Nat.ble 0x41 range.first &&
      blankRanges.all fun blank =>
        Nat.blt range.last blank.first || Nat.blt blank.last range.first) = true := by
    decide +kernel
  have hrange := List.all_eq_true.1 hall range h
  simp only [Bool.and_eq_true, List.all_eq_true, Bool.or_eq_true, Nat.ble_eq, Nat.blt_eq] at hrange
  exact hrange

theorem le_toNat_of_isAlphabetic (h : isAlphabetic c = true) : 0x41 ≤ c.toNat := by
  obtain ⟨range, hmem, hfirst, -⟩ := CharRange.covers_eq_true_iff.1 h
  exact Nat.le_trans (alphabeticRanges_apart hmem).1 hfirst

theorem isDigit_of_isAlphabetic (h : isAlphabetic c = true) : c.isDigit = false := by
  rw [← Bool.not_eq_true]
  intro hd
  have := le_toNat_of_isAlphabetic h
  have := toNat_of_isDigit hd
  omega

theorem isBlank_of_isAlphabetic (h : isAlphabetic c = true) : isBlank c = false := by
  rw [← Bool.not_eq_true]
  intro hb
  obtain ⟨range, hmem, hfirst, hlast⟩ := CharRange.covers_eq_true_iff.1 h
  obtain ⟨blank, hmem', hfirst', hlast'⟩ := CharRange.covers_eq_true_iff.1 hb
  have := (alphabeticRanges_apart hmem).2 blank hmem'
  omega

theorem isBlank_of_isDigit (h : c.isDigit = true) : isBlank c = false := by
  have hranges : ∀ blank ∈ blankRanges, 57 < blank.first ∨ blank.last < 48 := by decide
  rw [← Bool.not_eq_true]
  intro hb
  obtain ⟨blank, hmem, hfirst, hlast⟩ := CharRange.covers_eq_true_iff.1 hb
  have := hranges blank hmem
  have := toNat_of_isDigit h
  omega

/-! ## Marks -/

/-- The characters that are tokens by themselves. -/
def marks : List Char :=
  ['+', '-', '*', '/', '^', '(', ')']

/-- The token that the character is by itself, if it is one. -/
def mark? (c : Char) : Option Token :=
  (Token.reserved? (String.ofList [c])).filter Token.standsAlone

theorem exists_mark {t : Token} (h : t ∈ Token.reserved) (ha : t.standsAlone = true) :
    ∃ c ∈ marks, t.text.toList = [c] := by
  have hall : Token.reserved.all (fun t => !t.standsAlone || marks.any (t.text.toList == [·])) := by
    decide
  have := List.all_eq_true.1 hall t h
  rw [ha, Bool.not_true, Bool.false_or, List.any_eq_true] at this
  obtain ⟨c, hc, heq⟩ := this
  exact ⟨c, hc, beq_iff_eq.1 heq⟩

/-- **What stands alone is one mark only**, so nothing longer does. -/
theorem reserved_alone {cs : List Char} {t : Token}
    (h : (Token.reserved? (String.ofList cs)).filter Token.standsAlone = some t) :
    ∃ c ∈ marks, cs = [c] := by
  obtain ⟨hres, ha⟩ := Option.filter_eq_some_iff.1 h
  obtain ⟨c, hc, htext⟩ := exists_mark (List.mem_of_find?_eq_some hres) ha
  rw [Token.text_of_reserved? hres, String.toList_ofList] at htext
  exact ⟨c, hc, htext⟩

theorem reserved_append {cs : List Char} (ne : cs ≠ []) (c : Char) :
    (Token.reserved? (String.ofList (cs ++ [c]))).filter Token.standsAlone = none := by
  rw [Option.eq_none_iff_forall_ne_some]
  intro t h
  obtain ⟨d, -, heq⟩ := reserved_alone h
  have := congrArg List.length heq
  simp only [List.length_append, List.length_cons, List.length_nil] at this
  exact ne (List.length_eq_zero_iff.1 (by omega))

theorem mark?_eq_none (h : c ∉ marks) : mark? c = none := by
  rw [Option.eq_none_iff_forall_ne_some]
  intro t ht
  obtain ⟨d, hd, heq⟩ := reserved_alone ht
  cases heq
  exact h hd

theorem kinds_of_mem_marks (h : c ∈ marks) :
    isAlphabetic c = false ∧ c.isDigit = false ∧ isBlank c = false := by
  have hall :
      marks.all (fun c => (c.toNat < 0x41 || c == '^') && !c.isDigit && !isBlank c) = true := by
    decide
  have hcaret : isAlphabetic '^' = false := by decide +kernel
  have := List.all_eq_true.1 hall c h
  simp only [Bool.and_eq_true, Bool.or_eq_true, decide_eq_true_eq, beq_iff_eq,
    Bool.not_eq_true'] at this
  obtain ⟨⟨hlow, hd⟩, hb⟩ := this
  refine ⟨?_, hd, hb⟩
  rcases hlow with hlow | rfl
  · rw [← Bool.not_eq_true]
    intro ha
    have := le_toNat_of_isAlphabetic ha
    omega
  · exact hcaret

theorem mark?_of_isAlphabetic (h : isAlphabetic c = true) : mark? c = none :=
  mark?_eq_none fun hc => Bool.false_ne_true ((kinds_of_mem_marks hc).1.symm.trans h)

theorem mark?_of_isDigit (h : c.isDigit = true) : mark? c = none :=
  mark?_eq_none fun hc => Bool.false_ne_true ((kinds_of_mem_marks hc).2.1.symm.trans h)

theorem mark?_of_isBlank (h : isBlank c = true) : mark? c = none :=
  mark?_eq_none fun hc => Bool.false_ne_true ((kinds_of_mem_marks hc).2.2.symm.trans h)

end Formula
