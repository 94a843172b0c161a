import Formula.Decimal.Numeral
import Mathlib

/-!
# Floats as a sign and a magnitude

* `word`: the bits of a sign and a magnitude code; `toNat_word`.
* `unpack_components`, `pack_unpack_word`: what the bits stand for, and that they are found again.
* **`Numeral.ofMagnitude_eq`**: a float is put together from its sign and its magnitude.
* `Numeral.neg_ofMagnitude`, **`Numeral.neg_neg`**: negation turns the sign bit and nothing else.
-/

namespace Formula

namespace Binary64

open Float.Model Float.Model.UnpackedFloat

theorem infinityCode_eq : infinityCode = 2047 * 2 ^ 52 := rfl

/-! ## Words -/

/-- The sign that the sign bit stands for. -/
def sign (signed : Bool) : Sign :=
  if signed then .negative else .positive

/-- The bits of a float with the given sign bit and magnitude code. -/
def word (signed : Bool) (code : Nat) : BitVec 64 :=
  packComponents Format.binary64 (sign signed) (.ofNat 11 (code / 2 ^ 52)) (.ofNat 52 code)

theorem toNat_packComponents (s : Sign) (e : BitVec 11) (m : BitVec 52) :
    (packComponents Format.binary64 s e m).toNat =
      s.toBitVec.toNat * 2 ^ 63 + e.toNat * 2 ^ 52 + m.toNat := by
  simp only [packComponents, BitVec.toNat_append]
  rw [← Nat.shiftLeft_add_eq_or_of_lt e.isLt, ← Nat.shiftLeft_add_eq_or_of_lt m.isLt]
  simp only [Nat.shiftLeft_eq]
  omega

theorem toNat_word (signed : Bool) {code : Nat} (h : code < 2 ^ 63) :
    (word signed code).toNat = if signed then 2 ^ 63 + code else code := by
  have hs : (sign signed).toBitVec.toNat = if signed then 1 else 0 := by cases signed <;> rfl
  have := toNat_packComponents (sign signed) (.ofNat 11 (code / 2 ^ 52)) (.ofNat 52 code)
  rw [hs] at this
  simp only [BitVec.toNat_ofNat] at this
  rw [word, this]
  cases signed <;> simp only [if_true, if_false, Bool.false_eq_true] <;> omega

/-! ## What a word stands for -/

theorem unpack_components (s : Sign) (e : BitVec 11) (m : BitVec 52) :
    UnpackedFloat.unpack Format.binary64 (packComponents Format.binary64 s e m) =
      if e = -1#_ then if m = 0#_ then .infinity s else .notANumber
      else if e = 0#_ then
        if h : m = 0#_ then .zero s
        else .finite s m.toNat (-1074) (by simpa [BitVec.toNat_pos, BitVec.pos_iff_ne_zero])
      else .finite s (2 ^ 52 + m.toNat) (e.toNat - 1075) (by omega) := by
  have hm : (1#1 ++ m).toNat = 2 ^ 52 + m.toNat := by
    rw [BitVec.toNat_append, ← Nat.shiftLeft_add_eq_or_of_lt m.isLt]
    rfl
  simp only [UnpackedFloat.unpack, unpackMantissa_packComponents, unpackExponent_packComponents,
    unpackSign_packComponents, Sign.ofBitVec_toBitVec, hm]
  split
  · rfl
  · split
    · next h => subst h; rfl
    · rfl

section Finite

variable (signed : Bool) {code : Nat}

theorem exponent_eq_neg_one_iff (h : code < 2 ^ 63) :
    BitVec.ofNat 11 (code / 2 ^ 52) = -1#_ ↔ infinityCode ≤ code := by
  rw [← BitVec.toNat_inj, infinityCode_eq]
  change code / 2 ^ 52 % 2 ^ 11 = 2047 ↔ _
  omega

theorem isFinite_unpack_word (h : code < 2 ^ 63) :
    (UnpackedFloat.unpack Format.binary64 (word signed code)).isFinite =
      decide (code < infinityCode) := by
  have he := exponent_eq_neg_one_iff h
  rw [word, unpack_components]
  by_cases hc : infinityCode ≤ code
  · rw [if_pos (he.2 hc), decide_eq_false (by omega)]
    split <;> rfl
  · rw [if_neg (fun e => hc (he.1 e)), decide_eq_true (by omega)]
    split
    · split <;> rfl
    · rfl

theorem pack_unpack_word (h : code < infinityCode) :
    UnpackedFloat.pack Format.binary64
      (UnpackedFloat.unpack Format.binary64 (word signed code)) = word signed code := by
  refine pack_unpack_of_valid ⟨fun hexp => ?_⟩
  rw [word, unpackExponent_packComponents] at hexp
  rw [infinityCode_eq] at h
  have := (exponent_eq_neg_one_iff (by omega)).1 hexp
  rw [infinityCode_eq] at this
  omega

theorem neg_unpack_word :
    (UnpackedFloat.unpack Format.binary64 (word signed code)).neg =
      UnpackedFloat.unpack Format.binary64 (word (!signed) code) := by
  have hs : -sign signed = sign (!signed) := by cases signed <;> rfl
  rw [word, word, unpack_components, unpack_components]
  split
  · split
    · simp only [UnpackedFloat.neg, hs]
    · rfl
  · split
    · split <;> simp only [UnpackedFloat.neg, hs]
    · simp only [UnpackedFloat.neg, hs]

end Finite

end Binary64

namespace Numeral

open Binary64 Float.Model

theorem signWeight_eq : signWeight = 2 ^ 63 := rfl

/-! ## Floats -/

theorem toBits_ofMagnitude (signed : Bool) {code : Nat} (h : code < infinityCode) :
    (ofMagnitude signed code).toBits.toBitVec = word signed code := by
  have hb : (UInt64.ofNat (if signed then signWeight + code else code)).toBitVec =
      word signed code := by
    apply BitVec.eq_of_toNat_eq
    rw [infinityCode_eq] at h
    rw [toNat_word _ (by omega), UInt64.toNat_toBitVec, UInt64.toNat_ofNat', signWeight_eq]
    split <;> omega
  change UnpackedFloat.pack Format.binary64 (UnpackedFloat.unpack Format.binary64
    (UInt64.ofNat (if signed then signWeight + code else code)).toBitVec) = _
  rw [hb]
  exact pack_unpack_word signed h

theorem magnitudeCode_lt (x : Float) : magnitudeCode x < 2 ^ 63 :=
  Nat.mod_lt _ (Nat.two_pow_pos 63)

theorem toBits_eq_word (x : Float) : x.toBits.toBitVec = word (isSigned x) (magnitudeCode x) := by
  have hlt : x.toBits.toNat < 2 ^ 64 := x.toBits.toNat_lt
  apply BitVec.eq_of_toNat_eq
  rw [toNat_word _ (magnitudeCode_lt x), UInt64.toNat_toBitVec, isSigned, magnitudeCode,
    signWeight_eq]
  split
  · next hs =>
    have := of_decide_eq_true hs
    omega
  · next hs =>
    have := of_decide_eq_false (Bool.eq_false_of_not_eq_true hs)
    omega

theorem isFinite_iff (x : Float) : x.isFinite = true ↔ magnitudeCode x < infinityCode := by
  change (UnpackedFloat.unpack Format.binary64 x.toBits.toBitVec).isFinite = true ↔ _
  rw [toBits_eq_word, isFinite_unpack_word _ (magnitudeCode_lt x), decide_eq_true_eq]

theorem isNaN_of_isFinite {x : Float} (h : x.isFinite = true) : x.isNaN = false := by
  change UnpackedFloat.isFinite (UnpackedFloat.unpack Format.binary64 x.toBits.toBitVec) = true at h
  change UnpackedFloat.isNaN (UnpackedFloat.unpack Format.binary64 x.toBits.toBitVec) = false
  cases hx : UnpackedFloat.unpack Format.binary64 x.toBits.toBitVec with
  | notANumber => rw [hx] at h; exact h.symm
  | infinity _ | zero _ | finite _ _ _ _ => rfl

/-- **A float is put together from its sign and its magnitude.** -/
theorem ofMagnitude_eq (x : Float) : ofMagnitude (isSigned x) (magnitudeCode x) = x := by
  have hword := congrArg BitVec.toNat (toBits_eq_word x)
  rw [toNat_word _ (magnitudeCode_lt x), UInt64.toNat_toBitVec, ← signWeight_eq] at hword
  rw [ofMagnitude, ← hword, UInt64.ofNat_toNat, Float.ofBits_toBits]

section OfMagnitude

variable (signed : Bool) {code : Nat} (h : code < infinityCode)

include h in
theorem toNat_toBits_ofMagnitude :
    (ofMagnitude signed code).toBits.toNat = if signed then 2 ^ 63 + code else code := by
  have hc : code < 2 ^ 63 := by rw [infinityCode_eq] at h; omega
  rw [← UInt64.toNat_toBitVec, toBits_ofMagnitude signed h, toNat_word signed hc]

include h in
@[simp] theorem isSigned_ofMagnitude : isSigned (ofMagnitude signed code) = signed := by
  rw [infinityCode_eq] at h
  rw [isSigned, toNat_toBits_ofMagnitude signed h, signWeight_eq]
  cases signed
  · exact decide_eq_false (by simp; omega)
  · exact decide_eq_true (by simp)

include h in
@[simp] theorem magnitudeCode_ofMagnitude : magnitudeCode (ofMagnitude signed code) = code := by
  have hn := toNat_toBits_ofMagnitude signed h
  rw [infinityCode_eq] at h
  rw [magnitudeCode, hn, signWeight_eq]
  split <;> omega

include h in
theorem isFinite_ofMagnitude : (ofMagnitude signed code).isFinite = true := by
  rw [isFinite_iff, magnitudeCode_ofMagnitude signed h]
  exact h

include h in
theorem neg_ofMagnitude : -ofMagnitude signed code = ofMagnitude (!signed) code := by
  rw [← Float.toBits_inj, ← UInt64.toBitVec_inj]
  change UnpackedFloat.pack Format.binary64 (UnpackedFloat.unpack Format.binary64
    (ofMagnitude signed code).toBits.toBitVec).neg = _
  rw [toBits_ofMagnitude signed h, toBits_ofMagnitude _ h, neg_unpack_word]
  exact pack_unpack_word _ h

end OfMagnitude

/-! ## Negation of a finite float -/

section Neg

variable {x : Float} (h : x.isFinite = true)

include h in
theorem neg_eq_ofMagnitude : -x = ofMagnitude (!isSigned x) (magnitudeCode x) := by
  conv_lhs => rw [← ofMagnitude_eq x]
  exact neg_ofMagnitude _ ((isFinite_iff x).1 h)

include h in
theorem isFinite_neg : (-x).isFinite = true := by
  rw [neg_eq_ofMagnitude h]
  exact isFinite_ofMagnitude _ ((isFinite_iff x).1 h)

include h in
theorem isSigned_neg : isSigned (-x) = !isSigned x := by
  rw [neg_eq_ofMagnitude h, isSigned_ofMagnitude _ ((isFinite_iff x).1 h)]

include h in
theorem magnitudeCode_neg : magnitudeCode (-x) = magnitudeCode x := by
  rw [neg_eq_ofMagnitude h, magnitudeCode_ofMagnitude _ ((isFinite_iff x).1 h)]

include h in
/-- **Negation undoes itself.** -/
theorem neg_neg : - -x = x := by
  rw [neg_eq_ofMagnitude (isFinite_neg h), isSigned_neg h, magnitudeCode_neg h, Bool.not_not,
    ofMagnitude_eq]

end Neg

end Numeral

end Formula
