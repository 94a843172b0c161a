import Formula.Proofs.Nearest
import Formula.Proofs.SignMagnitude
import Mathlib.Data.List.TakeDrop

/-!
# Literals

A literal is a numeral as it stands in a formula: digits, and perhaps a point with more digits
behind it.

* `IsLiteral`: the shape of a literal; `isLiteral_positional`: a decimal is written in this shape.
* `readDecimal?_whole`, `readDecimal?_fraction`: the decimal that a literal stands for.
* `IsLiteral.isSigned_eq_false`: a literal has no sign.
* **`readFinite?_writeChars`**: the text of a finite float without a sign is a literal for it.
* `writeChars_of_isSigned`: the sign of any other finite float is written in front of such a text.
-/

namespace Formula.Numeral

open Binary64

/-! ## The shape of a literal -/

def AllDigits (cs : List Char) : Prop :=
  ∀ c ∈ cs, c.isDigit = true

/-- One or more digits, and perhaps a point with digits behind it. -/
inductive IsLiteral : List Char → Prop where
  | whole {digits : List Char} (ne : digits ≠ []) (h : AllDigits digits) : IsLiteral digits
  | fraction {digits places : List Char} (ne : digits ≠ []) (h : AllDigits digits)
      (h' : AllDigits places) : IsLiteral (digits ++ '.' :: places)

theorem IsLiteral.exists_cons {cs : List Char} (h : IsLiteral cs) :
    ∃ d rest, cs = d :: rest ∧ d.isDigit = true := by
  cases h with
  | whole ne h =>
    obtain ⟨d, rest, rfl⟩ := List.exists_cons_of_ne_nil ne
    exact ⟨d, rest, rfl, h d (List.mem_cons_self ..)⟩
  | fraction ne h _ =>
    obtain ⟨d, rest, rfl⟩ := List.exists_cons_of_ne_nil ne
    exact ⟨d, _, rfl, h d (List.mem_cons_self ..)⟩

theorem allDigits_toDigits (n : Nat) : AllDigits (Nat.toDigits 10 n) := fun _ hc =>
  Nat.isDigit_of_mem_toDigits (by omega) (by omega) hc

theorem allDigits_replicate (n : Nat) : AllDigits (List.replicate n '0') := fun c hc => by
  rw [(List.mem_replicate.1 hc).2]
  rfl

theorem AllDigits.append {cs ds : List Char} (hc : AllDigits cs) (hd : AllDigits ds) :
    AllDigits (cs ++ ds) := fun c h =>
  (List.mem_append.1 h).elim (hc c) (hd c)

/-- A decimal is written as its digits with zeros behind them, or with a point among them and so
many places that they keep their value. -/
theorem positional_eq (d : Decimal) :
    0 ≤ d.exponent ∧
        d.positional = Nat.toDigits 10 d.digits ++ List.replicate d.exponent.toNat '0' ∨
      ∃ whole places, d.positional = whole ++ '.' :: places ∧ whole ≠ [] ∧ AllDigits whole ∧
        AllDigits places ∧ -(places.length : Int) = d.exponent ∧
          Nat.ofDigitChars 10 (whole ++ places) 0 = d.digits := by
  have hd := allDigits_toDigits d.digits
  have hne : Nat.toDigits 10 d.digits ≠ [] := Nat.toDigits_ne_nil
  simp only [Decimal.positional]
  split
  · next hp => exact .inl ⟨by omega, rfl⟩
  · next hp =>
    refine .inr ?_
    split
    · next hlt =>
      refine ⟨_, _, rfl, ?_, fun c hc => hd c (List.mem_of_mem_take hc),
        fun c hc => hd c (List.mem_of_mem_drop hc), ?_, ?_⟩
      · rw [Ne, List.take_eq_nil_iff]
        exact fun h => h.elim (by omega) hne
      · rw [List.length_drop]
        omega
      · rw [List.take_append_drop, Nat.ofDigitChars_ten_toDigits]
    · next hge =>
      refine ⟨['0'], List.replicate ((-d.exponent).toNat - (Nat.toDigits 10 d.digits).length) '0' ++
        Nat.toDigits 10 d.digits, rfl, List.cons_ne_nil _ _, allDigits_replicate 1,
        (allDigits_replicate _).append hd, ?_, ?_⟩
      · rw [List.length_append, List.length_replicate]
        omega
      · rw [Nat.ofDigitChars_append, Nat.ofDigitChars_append]
        change Nat.ofDigitChars 10 _ (Nat.ofDigitChars 10 _ 0) = _
        rw [Nat.ofDigitChars_replicate_zero, Nat.mul_zero, Nat.ofDigitChars_ten_toDigits]

/-- **A decimal is written as a literal.** -/
theorem isLiteral_positional (d : Decimal) : IsLiteral d.positional := by
  have hd := allDigits_toDigits d.digits
  have hne : Nat.toDigits 10 d.digits ≠ [] := Nat.toDigits_ne_nil
  rcases positional_eq d with ⟨-, h⟩ | ⟨whole, places, h, ne, hwhole, hplaces, -⟩
  · rw [h]
    exact .whole (by simp [hne]) (hd.append (allDigits_replicate _))
  · rw [h]
    exact .fraction ne hwhole hplaces

/-! ## What a literal stands for -/

theorem span_append {cs rest : List Char} (h : AllDigits cs)
    (hrest : ∀ c ∈ rest.head?, c.isDigit = false) :
    (cs ++ rest).span Char.isDigit = (cs, rest) := by
  rw [List.span_eq_takeWhile_dropWhile, List.takeWhile_append_of_pos h,
    List.dropWhile_append_of_pos h]
  cases rest with
  | nil => simp
  | cons c rest => simp [hrest c rfl]

theorem readDecimal?_whole {digits : List Char} (ne : digits ≠ []) (h : AllDigits digits) :
    readDecimal? digits = some ⟨Nat.ofDigitChars 10 digits 0, 0⟩ := by
  have hspan : (digits ++ []).span Char.isDigit = (digits, []) := span_append h (by simp)
  rw [List.append_nil] at hspan
  rw [readDecimal?, hspan]
  simp [readFraction, readScale?, ne]

theorem readDecimal?_fraction {digits places : List Char} (ne : digits ≠ [])
    (h : AllDigits digits) (h' : AllDigits places) :
    readDecimal? (digits ++ '.' :: places) =
      some ⟨Nat.ofDigitChars 10 (digits ++ places) 0, -places.length⟩ := by
  have hspan : (digits ++ '.' :: places).span Char.isDigit = (digits, '.' :: places) :=
    span_append h fun c hc => by rw [← Option.some.inj hc]; rfl
  have hspan' : (places ++ []).span Char.isDigit = (places, []) := span_append h' (by simp)
  rw [List.append_nil] at hspan'
  rw [readDecimal?, hspan]
  simp only [readFraction, hspan']
  simp [readScale?, ne]

theorem toLower_of_isDigit {c : Char} (h : c.isDigit = true) : c.toLower = c := by
  simp only [Char.isDigit, Bool.and_eq_true, decide_eq_true_eq, UInt32.le_iff_toNat_le] at h
  have hu : ¬ (c.val ≥ 'A'.val ∧ c.val ≤ 'Z'.val) := fun hu =>
    absurd (Nat.le_trans (UInt32.le_iff_toNat_le.1 hu.1) h.2) (by decide)
  rw [Char.toLower, dif_neg hu]

theorem readMagnitude?_of_digit {d : Char} {rest : List Char} (h : d.isDigit = true) :
    readMagnitude? (d :: rest) = (readDecimal? (d :: rest)).map Decimal.code := by
  have hi : d ≠ 'i' := fun e => by subst e; exact absurd h (by decide)
  have hn : d ≠ 'n' := fun e => by subst e; exact absurd h (by decide)
  rw [readMagnitude?, List.map_cons, toLower_of_isDigit h]
  split <;> simp_all

theorem IsLiteral.readChars? {cs : List Char} (h : IsLiteral cs) :
    readChars? cs = ((readDecimal? cs).map Decimal.code).map (ofMagnitude false) := by
  obtain ⟨d, rest, rfl, hd⟩ := h.exists_cons
  have hm : d ≠ '-' := fun e => by subst e; exact absurd hd (by decide)
  have hp : d ≠ '+' := fun e => by subst e; exact absurd hd (by decide)
  rw [Numeral.readChars?, ← readMagnitude?_of_digit hd]
  · exact fun _ e => hm (List.cons.inj e).1
  · exact fun _ e => hp (List.cons.inj e).1

theorem code_le (d : Decimal) : d.code ≤ infinityCode := by
  simp only [Decimal.code, nearestCode]
  split
  · omega
  · split
    · omega
    · split
      · omega
      · split <;> omega

theorem IsLiteral.read? {cs : List Char} (h : IsLiteral cs) :
    ∃ code, code ≤ infinityCode ∧
      Numeral.read? (String.ofList cs) = some (ofMagnitude false code) := by
  have hd : ∃ d, readDecimal? cs = some d := by
    cases h with
    | whole ne h => exact ⟨_, readDecimal?_whole ne h⟩
    | fraction ne h h' => exact ⟨_, readDecimal?_fraction ne h h'⟩
  obtain ⟨d, hd⟩ := hd
  refine ⟨d.code, code_le d, ?_⟩
  rw [Numeral.read?, String.toList_ofList, h.readChars?, hd]
  rfl

theorem IsLiteral.isSigned_eq_false {cs : List Char} (h : IsLiteral cs) {x : Float}
    (hx : readFinite? (String.ofList cs) = some x) : isSigned x = false := by
  obtain ⟨hread, hfin⟩ := readFinite?_eq_some_iff.1 hx
  obtain ⟨code, hle, hcode⟩ := h.read?
  have hxcode := Option.some.inj (hread.symm.trans hcode)
  rcases Nat.lt_or_eq_of_le hle with hlt | rfl
  · rw [hxcode, isSigned_ofMagnitude false hlt]
  · rw [hxcode] at hfin
    exact absurd hfin (by decide)

/-! ## What is written -/

theorem code_mul_ten_pow {d : Decimal} (he : 0 ≤ d.exponent) (h : d.code < infinityCode) :
    (⟨10 ^ d.exponent.toNat * d.digits, 0⟩ : Decimal).code = d.code := by
  have hpow : 0 < 10 ^ d.exponent.toNat := Nat.pow_pos (by omega)
  by_cases hz : d.digits = 0
  · simp [Decimal.code, hz]
  · have hnz : 10 ^ d.exponent.toNat * d.digits ≠ 0 := (Nat.mul_pos hpow (by omega)).ne'
    have hsmall : ¬ 400 < d.exponent := fun hlt => by
      rw [Decimal.code, if_neg hz, if_pos hlt] at h
      exact absurd h (Nat.lt_irrefl _)
    have hden : d.den = 1 := by simp [Decimal.den, show (-d.exponent).toNat = 0 by omega]
    rw [Decimal.code, Decimal.code, if_neg hz, if_neg hnz, if_neg hsmall, if_neg (by simp),
      if_neg (by simp), if_neg (by omega), hden]
    simp [Decimal.num, Decimal.den, Nat.mul_comm]

theorem readDecimal?_positional {d : Decimal} (h : d.code < infinityCode) :
    (readDecimal? d.positional).map Decimal.code = some d.code := by
  have hd := allDigits_toDigits d.digits
  have hne : Nat.toDigits 10 d.digits ≠ [] := Nat.toDigits_ne_nil
  rcases positional_eq d with ⟨he, heq⟩ | ⟨whole, places, heq, ne, hwhole, hplaces, hlen, hvalue⟩
  · rw [heq, readDecimal?_whole (by simp [hne]) (hd.append (allDigits_replicate _)),
      Nat.ofDigitChars_append, Nat.ofDigitChars_ten_toDigits, Nat.ofDigitChars_replicate_zero,
      Option.map_some, code_mul_ten_pow he h]
  · rw [heq, readDecimal?_fraction ne hwhole hplaces, hvalue, hlen]
    rfl

section Write

variable {code : Nat}

theorem isLiteral_writeMagnitude (h : code < infinityCode) : IsLiteral (writeMagnitude code) := by
  rw [writeMagnitude, if_pos h]
  exact isLiteral_positional _

/-- **The text of a finite magnitude reads back as it.** -/
theorem readFinite?_writeMagnitude (h : code < infinityCode) :
    readFinite? (String.ofList (writeMagnitude code)) = some (ofMagnitude false code) := by
  have hcode := Decimal.code_shortest h
  have hread := readDecimal?_positional (d := Decimal.shortest code) (by rwa [hcode])
  rw [readFinite?, Numeral.read?, String.toList_ofList, (isLiteral_writeMagnitude h).readChars?,
    writeMagnitude, if_pos h, hread, hcode, Option.map_some, Option.filter_some,
    if_pos (isFinite_ofMagnitude false h)]

end Write

theorem readFinite?_writeChars {x : Float} (h : x.isFinite = true) (hs : isSigned x = false) :
    IsLiteral (writeChars x) ∧ readFinite? (write x) = some x := by
  have hcode := (isFinite_iff x).1 h
  have hw : writeChars x = writeMagnitude (magnitudeCode x) := by
    rw [writeChars, isNaN_of_isFinite h, hs]
    rfl
  have hx := ofMagnitude_eq x
  rw [hs] at hx
  rw [write, hw]
  exact ⟨isLiteral_writeMagnitude hcode, (readFinite?_writeMagnitude hcode).trans (by rw [hx])⟩

theorem writeChars_of_isSigned {x : Float} (h : x.isFinite = true) (hs : isSigned x = true) :
    writeChars x = '-' :: writeChars (-x) := by
  have hneg := isFinite_neg h
  rw [writeChars, writeChars, isNaN_of_isFinite h, isNaN_of_isFinite hneg, isSigned_neg h, hs,
    magnitudeCode_neg h]
  rfl

end Formula.Numeral
