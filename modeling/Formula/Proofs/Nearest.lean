import Formula.Decimal.Shortest
import Mathlib.Tactic.Ring

/-!
# The nearest code of a value that has one

* `reaches`, `floorLog2_eq`: the largest power of two that is at most a quotient.
* `nearestCode_exact`: a code is the nearest one to the value that it stands for.
* **`Decimal.code_shortest`**: the shortest decimal of a finite magnitude rounds back to it.
-/

namespace Formula

namespace Binary64

/-! ## Powers of two below a quotient -/

/-- `2 ^ p` is at most `num / den`. -/
def reaches (num den : Nat) (p : Int) : Prop :=
  den * 2 ^ p.toNat ≤ num * 2 ^ (-p).toNat

section Reaches

variable {num den : Nat} {p : Int}

theorem reaches_succ_iff :
    reaches num den (p + 1) ↔ 2 * (den * 2 ^ p.toNat) ≤ num * 2 ^ (-p).toNat := by
  unfold reaches
  rcases Int.lt_or_le p 0 with hp | hp
  · have h1 : (p + 1).toNat = 0 := by omega
    have h2 : p.toNat = 0 := by omega
    have h3 : (-p).toNat = (-(p + 1)).toNat + 1 := by omega
    have h4 : num * 2 ^ ((-(p + 1)).toNat + 1) = 2 * (num * 2 ^ (-(p + 1)).toNat) := by
      rw [Nat.pow_succ]; ring
    rw [h1, h2, h3, h4]
    omega
  · have h1 : (p + 1).toNat = p.toNat + 1 := by omega
    have h2 : (-(p + 1)).toNat = 0 := by omega
    have h3 : (-p).toNat = 0 := by omega
    have h4 : den * 2 ^ (p.toNat + 1) = 2 * (den * 2 ^ p.toNat) := by
      rw [Nat.pow_succ]; ring
    rw [h1, h2, h3, h4]

theorem reaches_anti (h : reaches num den p) (k : Nat) : reaches num den (p - k) := by
  induction k with
  | zero => simpa using h
  | succ k ih =>
    have hk : p - ((k + 1 : Nat) : Int) + 1 = p - k := by omega
    rw [← hk, reaches_succ_iff] at ih
    unfold reaches
    omega

theorem reaches_of_le {q : Int} (h : reaches num den q) (hpq : p ≤ q) : reaches num den p := by
  have := reaches_anti h (q - p).toNat
  rwa [show q - ((q - p).toNat : Int) = p by omega] at this

theorem two_pow_le_two_pow {a b : Nat} (h : a = b) : (2 : Nat) ^ a ≤ 2 ^ b := h ▸ Nat.le_refl _

theorem reaches_log2 (hnum : num ≠ 0) : reaches num den ((num.log2 : Int) - den.log2 - 1) := by
  generalize hp : (num.log2 : Int) - den.log2 - 1 = p
  have hden : den ≤ 2 ^ (den.log2 + 1) := Nat.le_of_lt Nat.lt_log2_self
  calc den * 2 ^ p.toNat
      ≤ 2 ^ (den.log2 + 1) * 2 ^ p.toNat := Nat.mul_le_mul_right _ hden
    _ = 2 ^ (den.log2 + 1 + p.toNat) := (Nat.pow_add ..).symm
    _ ≤ 2 ^ (num.log2 + (-p).toNat) := two_pow_le_two_pow (by omega)
    _ = 2 ^ num.log2 * 2 ^ (-p).toNat := Nat.pow_add ..
    _ ≤ num * 2 ^ (-p).toNat := Nat.mul_le_mul_right _ (Nat.log2_self_le hnum)

theorem not_reaches_log2 (hden : den ≠ 0) :
    ¬ reaches num den ((num.log2 : Int) - den.log2 + 1) := by
  generalize hp : (num.log2 : Int) - den.log2 + 1 = p
  have hpos : 0 < 2 ^ (-p).toNat := Nat.two_pow_pos _
  refine Nat.not_le.2 ?_
  calc num * 2 ^ (-p).toNat
      < 2 ^ (num.log2 + 1) * 2 ^ (-p).toNat := (Nat.mul_lt_mul_right hpos).2 Nat.lt_log2_self
    _ = 2 ^ (num.log2 + 1 + (-p).toNat) := (Nat.pow_add ..).symm
    _ ≤ 2 ^ (den.log2 + p.toNat) := two_pow_le_two_pow (by omega)
    _ = 2 ^ den.log2 * 2 ^ p.toNat := Nat.pow_add ..
    _ ≤ den * 2 ^ p.toNat := Nat.mul_le_mul_right _ (Nat.log2_self_le hden)

/-- **The exponent of the largest power of two below a quotient** is the one it reaches last. -/
theorem floorLog2_eq (hnum : num ≠ 0) (hden : den ≠ 0) (h : reaches num den p)
    (hlast : ¬ reaches num den (p + 1)) : floorLog2 num den = p := by
  have hlow : reaches num den ((num.log2 : Int) - den.log2 - 1) := reaches_log2 hnum
  have hhigh : ¬ reaches num den ((num.log2 : Int) - den.log2 + 1) := not_reaches_log2 hden
  have hle : p < (num.log2 : Int) - den.log2 + 1 :=
    Int.not_le.1 fun hp => hhigh (reaches_of_le h hp)
  have hge : (num.log2 : Int) - den.log2 - 1 < p + 1 :=
    Int.not_le.1 fun hp => hlast (reaches_of_le hlow hp)
  simp only [floorLog2, Nat.pow_eq]
  split
  · next hlt =>
    have : p < (num.log2 : Int) - den.log2 :=
      Int.not_le.1 fun hp => Nat.not_le.2 hlt (reaches_of_le h hp)
    omega
  · next hnlt =>
    have : (num.log2 : Int) - den.log2 < p + 1 :=
      Int.not_le.1 fun hp => hlast (reaches_of_le (Nat.not_lt.1 hnlt) hp)
    omega

end Reaches

/-! ## Values of codes -/

theorem roundQuotient_mul (n : Nat) {d : Nat} (hd : 0 < d) : roundQuotient (n * d) d = n := by
  simp only [roundQuotient, Nat.mul_mod_left, Nat.mul_div_cancel n hd]
  rw [if_pos (by omega)]

theorem five_pow_mul_two_pow (k : Nat) : 10 ^ k = 5 ^ k * 2 ^ k := by
  rw [← Nat.mul_pow]

/-- `m * 2 ^ (j - k)` reaches the powers of two that are at most `2 ^ (j - k)` times as large as
those that `m` reaches. -/
theorem reaches_exact (m j k l : Nat) :
    reaches (m * 2 ^ j * 5 ^ k) (10 ^ k) ((l : Int) + j - k) ↔ 2 ^ l ≤ m := by
  generalize hp : (l : Int) + j - k = p
  have hexp : k + p.toNat = l + (j + (-p).toNat) := by omega
  have hden : 10 ^ k * 2 ^ p.toNat = 2 ^ l * (5 ^ k * 2 ^ (j + (-p).toNat)) := by
    rw [five_pow_mul_two_pow, Nat.mul_assoc, ← Nat.pow_add, hexp, Nat.pow_add]
    ring
  have hnum : m * 2 ^ j * 5 ^ k * 2 ^ (-p).toNat = m * (5 ^ k * 2 ^ (j + (-p).toNat)) := by
    rw [Nat.pow_add]
    ring
  unfold reaches
  rw [hden, hnum]
  exact Nat.mul_le_mul_right_iff (Nat.mul_pos (Nat.pow_pos (by omega)) (Nat.two_pow_pos _))

theorem floorLog2_exact {m : Nat} (hm : m ≠ 0) (j k : Nat) :
    floorLog2 (m * 2 ^ j * 5 ^ k) (10 ^ k) = (m.log2 : Int) + j - k := by
  have hnum : m * 2 ^ j * 5 ^ k ≠ 0 :=
    Nat.mul_ne_zero (Nat.mul_ne_zero hm (Nat.two_pow_pos j).ne') (Nat.pow_pos (by omega)).ne'
  have hden : 10 ^ k ≠ 0 := (Nat.pow_pos (by omega)).ne'
  refine floorLog2_eq hnum hden ((reaches_exact m j k _).2 (Nat.log2_self_le hm)) fun h => ?_
  have hl := (reaches_exact m j k (m.log2 + 1)).1
    (by rwa [show ((m.log2 + 1 : Nat) : Int) + j - k = (m.log2 : Int) + j - k + 1 by omega])
  exact Nat.not_le.2 Nat.lt_log2_self hl

section Code

variable {code : Nat}

theorem significand_ne_zero (h : code ≠ 0) : significand code ≠ 0 := by
  have hb : 0 < binade := by decide
  unfold significand
  split <;> omega

theorem unit_eq (h : code ≠ 0) :
    max ((significand code).log2 + exponent code - 52) (-1074) = exponent code := by
  have hb : binade = 4503599627370496 := by decide
  unfold exponent significand
  split
  · next hlt =>
    have hlog : code.log2 < 52 := (Nat.log2_lt h).2 (by rw [hb] at hlt; omega)
    have hdiv : code / binade = 0 := Nat.div_eq_of_lt hlt
    rw [hdiv]
    omega
  · next hge =>
    have hlog : (binade + code % binade).log2 = 52 := by
      rw [hb, Nat.log2_eq_iff (by omega)]
      omega
    rw [hlog, hb] at *
    omega

theorem significand_add_exponent (code : Nat) :
    significand code + (exponent code + 1074).toNat * binade = code := by
  have hb : 0 < binade := by decide
  have hdiv := Nat.div_add_mod code binade
  unfold exponent significand
  split
  · next hlt =>
    rw [Nat.div_eq_of_lt hlt, show (((max 0 1 : Nat) : Int) - 1075 + 1074).toNat = 0 by omega]
    omega
  · next hge =>
    have hq : 1 ≤ code / binade := (Nat.one_le_div_iff hb).2 (Nat.not_lt.1 hge)
    have hshift : (((max (code / binade) 1 : Nat) : Int) - 1075 + 1074).toNat =
        code / binade - 1 := by omega
    rw [hshift, Nat.sub_mul, Nat.one_mul, Nat.mul_comm]
    have := Nat.le_mul_of_pos_right binade hq
    omega

/-- **A code is the nearest one to the value that it stands for.** -/
theorem nearestCode_exact (h : code ≠ 0) (hfin : code < infinityCode) :
    nearestCode
      (significand code * 2 ^ (exponent code).toNat * 5 ^ (-exponent code).toNat)
      (10 ^ (-exponent code).toNat) = code := by
  have hm := significand_ne_zero h
  have hunit := unit_eq h
  generalize hq : exponent code = q at *
  generalize hs : significand code = m at *
  have hnum : m * 2 ^ q.toNat * 5 ^ (-q).toNat ≠ 0 :=
    Nat.mul_ne_zero (Nat.mul_ne_zero hm (Nat.two_pow_pos _).ne') (Nat.pow_pos (by omega)).ne'
  have hlog : floorLog2 (m * 2 ^ q.toNat * 5 ^ (-q).toNat) (10 ^ (-q).toNat) = m.log2 + q := by
    rw [floorLog2_exact hm]; omega
  have hscale : m * 2 ^ q.toNat * 5 ^ (-q).toNat * 2 ^ (-q).toNat =
      m * (10 ^ (-q).toNat * 2 ^ q.toNat) := by
    rw [five_pow_mul_two_pow]; ring
  have hpos : 0 < 10 ^ (-q).toNat * 2 ^ q.toNat :=
    Nat.mul_pos (Nat.pow_pos (by omega)) (Nat.two_pow_pos _)
  simp only [nearestCode, if_neg hnum, hlog, hunit, Nat.pow_eq]
  rw [hscale, roundQuotient_mul m hpos, ← hs, ← hq, significand_add_exponent]
  exact Nat.min_eq_left (Nat.le_of_lt hfin)

end Code

end Binary64

namespace Decimal

open Binary64

variable {code : Nat}

/-! ## Decimals of codes -/

theorem two_mul_le_log2_exact (h : code ≠ 0) :
    2 * (-Binary64.exponent code).toNat ≤ (exact code).digits.log2 := by
  have hm := significand_ne_zero h
  simp only [exact, Nat.pow_eq]
  generalize (-Binary64.exponent code).toNat = k
  have hpos : 0 < significand code * 2 ^ (Binary64.exponent code).toNat :=
    Nat.mul_pos (Nat.pos_of_ne_zero hm) (Nat.two_pow_pos _)
  have hfive : 0 < 5 ^ k := Nat.pow_pos (by omega)
  rw [Nat.le_log2 (Nat.mul_pos hpos hfive).ne']
  calc 2 ^ (2 * k) = 4 ^ k := by rw [Nat.pow_mul]
    _ ≤ 5 ^ k := Nat.pow_le_pow_left (by omega) k
    _ ≤ significand code * 2 ^ (Binary64.exponent code).toNat * 5 ^ k :=
      Nat.le_mul_of_pos_left _ hpos

theorem code_exact (h : code ≠ 0) (hfin : code < infinityCode) : (exact code).code = code := by
  have hlog := two_mul_le_log2_exact h
  have hdigits : (exact code).digits ≠ 0 := by
    simp only [exact, Nat.pow_eq]
    exact Nat.mul_ne_zero (Nat.mul_ne_zero (significand_ne_zero h) (Nat.two_pow_pos _).ne')
      (Nat.pow_pos (by omega)).ne'
  have hexp : (exact code).exponent = min (Binary64.exponent code) 0 := rfl
  -- the decimal has so many digits that it is not taken for one out of range
  rw [Decimal.code, if_neg hdigits, if_neg (by omega), if_neg (by omega)]
  have hnum : (exact code).num = significand code * 2 ^ (Binary64.exponent code).toNat *
      5 ^ (-Binary64.exponent code).toNat := by
    have : (min (Binary64.exponent code) 0).toNat = 0 := by omega
    simp only [num, this, exact, Nat.pow_eq, Nat.pow_zero, Nat.mul_one]
  have hden : (exact code).den = 10 ^ (-Binary64.exponent code).toNat := by
    have : (-min (Binary64.exponent code) 0).toNat = (-Binary64.exponent code).toNat := by omega
    simp only [den, hexp, this, Nat.pow_eq]
  rw [hnum, hden, nearestCode_exact h hfin]

theorem code_shortestFrom (h : code ≠ 0) (hfin : code < infinityCode) (grids : Nat) (p : Int) :
    (shortestFrom code grids p).code = code := by
  induction grids generalizing p with
  | zero => exact code_exact h hfin
  | succ grids ih =>
    rw [shortestFrom]
    split
    · next d hd => exact code_neighbour? hd
    · exact ih (p - 1)

/-- **The shortest decimal of a finite magnitude rounds back to it.** -/
theorem code_shortest (hfin : code < infinityCode) : (shortest code).code = code := by
  unfold shortest
  split
  · next h => subst h; rfl
  · next h => exact code_shortestFrom h hfin 21 _

end Decimal

end Formula
