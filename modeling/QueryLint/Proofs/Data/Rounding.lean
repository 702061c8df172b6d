import Mathlib.Algebra.Order.Field.Power
import Mathlib.Data.Rat.Floor
import Mathlib.Tactic.Linarith
import Mathlib.Tactic.NormNum
import Mathlib.Tactic.Ring
import QueryLint.Data.Binary64

/-!
# Rounding to binary floating-point numbers

Every decimal in the interval of a number is read as the number: below a number that is a power of two
the exponent may come out smaller at first, but then the significand is rounded up to the power.
-/
namespace QueryLint.Data.Binary64

/-- Whether a significand and an exponent are those of a number: the significand has as many bits as there
are, unless the exponent is the least one. -/
structure IsNormal (m : Nat) (e : Int) : Prop where
  lt : m < 2 ^ precision
  least : leastExponent ≤ e
  greatest : e ≤ greatestExponent
  full : 2 ^ (precision - 1) ≤ m ∨ e = leastExponent

namespace Fraction

/-- What a fraction amounts to. -/
def toRat (x : Fraction) : ℚ := x.numerator / x.denominator

variable {x y : Fraction} {b n : Nat} {e : Int}

theorem denominator_scaled (hb : 0 < b) : 0 < (scaled n b e).denominator := by
  unfold scaled
  split
  · exact Nat.one_pos
  · exact Nat.pow_pos hb

theorem denominator_unscale (hb : 0 < b) (hx : 0 < x.denominator) :
    0 < (x.unscale b e).denominator := by
  unfold unscale
  split
  · exact Nat.mul_pos hx (Nat.pow_pos hb)
  · exact hx

theorem zpow_toNat {q : ℚ} (h : 0 ≤ e) : q ^ e.toNat = q ^ e := by
  rw [← zpow_natCast, Int.toNat_of_nonneg h]

theorem toRat_scaled : (scaled n b e).toRat = n * (b : ℚ) ^ e := by
  unfold scaled toRat
  split
  · next h =>
    simp only [Nat.pow_eq, Nat.cast_mul, Nat.cast_pow, Nat.cast_one, div_one]
    rw [zpow_toNat h]
  · next h =>
    simp only [Nat.pow_eq, Nat.cast_pow]
    rw [zpow_toNat (by omega), zpow_neg, div_inv_eq_mul]

theorem toRat_unscale : (x.unscale b e).toRat = x.toRat / (b : ℚ) ^ e := by
  unfold unscale toRat
  split
  · next h =>
    simp only [Nat.pow_eq, Nat.cast_mul, Nat.cast_pow]
    rw [zpow_toNat h, div_mul_eq_div_div]
  · next h =>
    simp only [Nat.pow_eq, Nat.cast_mul, Nat.cast_pow]
    rw [zpow_toNat (by omega), zpow_neg, mul_div_right_comm, ← div_eq_mul_inv]

theorem le_iff (hx : 0 < x.denominator) (hy : 0 < y.denominator) : x.le y ↔ x.toRat ≤ y.toRat := by
  have hx' : (0 : ℚ) < x.denominator := by exact_mod_cast hx
  have hy' : (0 : ℚ) < y.denominator := by exact_mod_cast hy
  rw [le, decide_eq_true_iff, toRat, toRat, div_le_div_iff₀ hx' hy']
  exact_mod_cast Iff.rfl

theorem lt_iff (hx : 0 < x.denominator) (hy : 0 < y.denominator) : x.lt y ↔ x.toRat < y.toRat := by
  have hx' : (0 : ℚ) < x.denominator := by exact_mod_cast hx
  have hy' : (0 : ℚ) < y.denominator := by exact_mod_cast hy
  rw [lt, decide_eq_true_iff, toRat, toRat, div_lt_div_iff₀ hx' hy']
  exact_mod_cast Iff.rfl

/-- The whole part of a fraction reaches a number if the fraction does. -/
theorem le_div_iff (hx : 0 < x.denominator) : n ≤ x.numerator / x.denominator ↔ (n : ℚ) ≤ x.toRat := by
  have hx' : (0 : ℚ) < x.denominator := by exact_mod_cast hx
  rw [Nat.le_div_iff_mul_le hx, toRat, le_div_iff₀ hx']
  exact_mod_cast Iff.rfl

/-- What rounding comes to, in whole numbers, with the denominator multiplied out. -/
theorem round_mk_eq {m n d : Nat} (hd : 0 < d) (hlow : 2 * (m * d) ≤ 2 * n + d)
    (hhigh : 2 * n ≤ 2 * (m * d) + d)
    (htie : m % 2 = 0 ∨ 2 * (m * d) < 2 * n + d ∧ 2 * n < 2 * (m * d) + d) :
    (Fraction.mk n d).round = m := by
  have hdiv : n / d * d + n % d = n := Nat.div_add_mod' n d
  have hmod : n % d < d := Nat.mod_lt n hd
  have hle : m ≤ n / d + 1 := by
    by_contra hgt
    have hmul := Nat.mul_le_mul_right d (Nat.succ_le_of_lt (Nat.lt_of_not_le hgt))
    rw [Nat.succ_eq_add_one, Nat.add_mul, Nat.add_mul] at hmul
    omega
  have hge : n / d ≤ m := by
    by_contra hgt
    have hmul := Nat.mul_le_mul_right d (Nat.succ_le_of_lt (Nat.lt_of_not_le hgt))
    rw [Nat.succ_eq_add_one, Nat.add_mul] at hmul
    omega
  simp only [round]
  rcases Nat.eq_or_lt_of_le hge with heq | hlt
  · rw [heq] at hdiv ⊢
    split_ifs <;> omega
  · have heq : m = n / d + 1 := Nat.le_antisymm hle hlt
    have hmul : m * d = n / d * d + d := by rw [heq, Nat.add_mul, Nat.one_mul]
    split_ifs <;> omega

/-- A fraction is rounded to the number that is at most a half away, and even if it is just a half. -/
theorem round_eq {m : Nat} (hx : 0 < x.denominator) (hlow : (m : ℚ) - 1 / 2 ≤ x.toRat)
    (hhigh : x.toRat ≤ m + 1 / 2)
    (htie : m % 2 = 0 ∨ (m : ℚ) - 1 / 2 < x.toRat ∧ x.toRat < m + 1 / 2) : x.round = m := by
  obtain ⟨n, d⟩ := x
  simp only [toRat] at hx hlow hhigh htie
  have hx' : (0 : ℚ) < d := by exact_mod_cast hx
  rw [le_div_iff₀ hx'] at hlow
  rw [div_le_iff₀ hx'] at hhigh
  rw [lt_div_iff₀ hx', div_lt_iff₀ hx'] at htie
  apply round_mk_eq hx
  · have : (2 * (m * d) : ℚ) ≤ 2 * n + d := by linarith
    exact_mod_cast this
  · have : (2 * n : ℚ) ≤ 2 * (m * d) + d := by linarith
    exact_mod_cast this
  · refine htie.imp_right fun h => ⟨?_, ?_⟩
    · have : (2 * (m * d) : ℚ) < 2 * n + d := by linarith [h.1]
      exact_mod_cast this
    · have : (2 * n : ℚ) < 2 * (m * d) + d := by linarith [h.2]
      exact_mod_cast this

/-- A fraction is rounded in units of a power of two as it is in whole numbers. -/
theorem round_unscale_eq {m : Nat} {e : Int} (hx : 0 < x.denominator)
    (hlow : (m : ℚ) - 1 / 2 ≤ x.toRat / 2 ^ e) (hhigh : x.toRat / 2 ^ e ≤ m + 1 / 2)
    (htie : m % 2 = 0 ∨ (m : ℚ) - 1 / 2 < x.toRat / 2 ^ e ∧ x.toRat / 2 ^ e < m + 1 / 2) :
    (x.unscale 2 e).round = m := by
  apply round_eq (denominator_unscale Nat.two_pos hx) <;> rw [toRat_unscale] <;> assumption

end Fraction

/-- Among the exponents from the least one on, one is such that the fraction has as many bits as there
are before the point, or is the least one. -/
structure Suits (y : ℚ) (e : Int) : Prop where
  lt : y / 2 ^ e < 2 ^ precision
  least : leastExponent ≤ e
  full : 2 ^ (precision - 1) ≤ y / 2 ^ e ∨ e = leastExponent

section Suits

variable {y : ℚ} {e e' : Int}

theorem div_zpow_lt_iff {n : Nat} : y / 2 ^ e < 2 ^ n ↔ y < 2 ^ (n + e) := by
  rw [div_lt_iff₀ (zpow_pos (by norm_num) _), ← zpow_natCast, ← zpow_add₀ (by norm_num)]

theorem le_div_zpow_iff {n : Nat} : 2 ^ n ≤ y / 2 ^ e ↔ 2 ^ (n + e) ≤ y := by
  rw [le_div_iff₀ (zpow_pos (by norm_num) _), ← zpow_natCast, ← zpow_add₀ (by norm_num)]

theorem two_pow_precision : (2 : ℚ) ^ precision = 2 * 2 ^ (precision - 1) := by
  norm_num [precision]

theorem div_zpow_succ (y : ℚ) (e : Int) : y / 2 ^ (e + 1) = y / 2 ^ e / 2 := by
  rw [zpow_add_one₀ (by norm_num), div_div]

theorem div_zpow_pred (y : ℚ) (e : Int) : y / 2 ^ (e - 1) = 2 * (y / 2 ^ e) := by
  have hsucc := div_zpow_succ y (e - 1)
  rw [sub_add_cancel] at hsucc
  rw [hsucc, mul_div_cancel₀ _ two_ne_zero]

theorem div_zpow_le_half (hy : 0 < y) (h : e < e') : y / 2 ^ e' ≤ y / 2 ^ e / 2 := by
  rw [← div_zpow_succ]
  exact div_le_div_of_nonneg_left hy.le (zpow_pos (by norm_num) _)
    (zpow_le_zpow_right₀ (by norm_num) h)

/-- No larger exponent suits a fraction than another that does. -/
theorem Suits.le (hy : 0 < y) (h : Suits y e) (h' : Suits y e') : e' ≤ e := by
  by_contra hlt
  have hhalf := div_zpow_le_half hy (Int.lt_of_not_ge hlt)
  have hlt' := h.lt
  rcases h'.full with hfull | hleast
  · have hpow := two_pow_precision
    linarith
  · have := h.least
    omega

theorem Suits.eq (hy : 0 < y) (h : Suits y e) (h' : Suits y e') : e' = e :=
  le_antisymm (h.le hy h') (h'.le hy h)

end Suits

/-- The exponent that is tried for a fraction, one more if there are too many bits. -/
def exponentOf (x : Fraction) : Int :=
  let magnitude : Int := (Nat.log2 x.numerator : Int) - Nat.log2 x.denominator
  let low := max leastExponent (magnitude - precision)
  let wide := (x.unscale 2 low).numerator / (x.unscale 2 low).denominator
  if Nat.pow 2 precision ≤ wide then low + 1 else low

theorem ofFraction_eq_exponentOf (negative : Bool) (x : Fraction) :
    ofFraction negative x =
      let m := (x.unscale 2 (exponentOf x)).round
      let p := if m = Nat.pow 2 precision then (Nat.pow 2 (precision - 1), exponentOf x + 1)
        else (m, exponentOf x)
      if greatestExponent < p.2 then infinite negative else finite negative p.1 p.2 := rfl

variable {x : Fraction}

/-- The magnitude of a fraction is that of its logarithm. -/
theorem magnitude_bounds (hn : 0 < x.numerator) (hd : 0 < x.denominator) :
    (2 : ℚ) ^ ((Nat.log2 x.numerator : Int) - Nat.log2 x.denominator - 1) < x.toRat ∧
      x.toRat < 2 ^ ((Nat.log2 x.numerator : Int) - Nat.log2 x.denominator + 1) := by
  have hd' : (0 : ℚ) < x.denominator := by exact_mod_cast hd
  have hnlow : (2 : ℚ) ^ Nat.log2 x.numerator ≤ x.numerator := by
    exact_mod_cast Nat.log2_self_le hn.ne'
  have hnhigh : (x.numerator : ℚ) < 2 ^ (Nat.log2 x.numerator + 1) := by
    exact_mod_cast Nat.lt_log2_self
  have hdlow : (2 : ℚ) ^ Nat.log2 x.denominator ≤ x.denominator := by
    exact_mod_cast Nat.log2_self_le hd.ne'
  have hdhigh : (x.denominator : ℚ) < 2 ^ (Nat.log2 x.denominator + 1) := by
    exact_mod_cast Nat.lt_log2_self
  have htwo : (2 : ℚ) ≠ 0 := by norm_num
  rw [Fraction.toRat, lt_div_iff₀ hd', div_lt_iff₀ hd']
  generalize Nat.log2 x.numerator = a at *
  generalize Nat.log2 x.denominator = b at *
  have hlow : (2 : ℚ) ^ ((a : Int) - b - 1) * 2 ^ (b + 1) = 2 ^ a := by
    rw [← zpow_natCast, ← zpow_natCast, ← zpow_add₀ htwo]
    congr 1
    push_cast
    ring
  have hhigh : (2 : ℚ) ^ ((a : Int) - b + 1) * 2 ^ b = 2 ^ (a + 1) := by
    rw [← zpow_natCast, ← zpow_natCast, ← zpow_add₀ htwo]
    congr 1
    push_cast
    ring
  constructor
  · calc (2 : ℚ) ^ ((a : Int) - b - 1) * x.denominator
        < 2 ^ ((a : Int) - b - 1) * 2 ^ (b + 1) :=
          mul_lt_mul_of_pos_left hdhigh (zpow_pos (by norm_num) _)
      _ = 2 ^ a := hlow
      _ ≤ x.numerator := hnlow
  · calc (x.numerator : ℚ) < 2 ^ (a + 1) := hnhigh
      _ = 2 ^ ((a : Int) - b + 1) * 2 ^ b := hhigh.symm
      _ ≤ 2 ^ ((a : Int) - b + 1) * x.denominator :=
          mul_le_mul_of_nonneg_left hdlow (zpow_pos (by norm_num) _).le

theorem suits_exponentOf (hn : 0 < x.numerator) (hd : 0 < x.denominator) :
    Suits x.toRat (exponentOf x) := by
  obtain ⟨hbelow, habove⟩ := magnitude_bounds hn hd
  unfold exponentOf
  generalize ((Nat.log2 x.numerator : Int) - Nat.log2 x.denominator) = magnitude at *
  have hwide : ∀ e, Nat.pow 2 precision ≤ (x.unscale 2 e).numerator / (x.unscale 2 e).denominator ↔
      (2 : ℚ) ^ precision ≤ x.toRat / 2 ^ e := by
    intro e
    rw [Fraction.le_div_iff (Fraction.denominator_unscale Nat.two_pos hd), Fraction.toRat_unscale,
      Nat.pow_eq]
    push_cast
    rfl
  have hpow := two_pow_precision
  simp only [hwide]
  have hlow : magnitude - precision ≤ max leastExponent (magnitude - precision) := le_max_right _ _
  split_ifs with h
  · refine ⟨?_, by omega, .inl ?_⟩
    · rw [div_zpow_lt_iff]
      exact habove.trans_le (zpow_le_zpow_right₀ (by norm_num) (by omega))
    · rw [div_zpow_succ]
      linarith
  · refine ⟨not_le.mp h, le_max_left _ _, ?_⟩
    rcases le_total (magnitude - precision) leastExponent with hle | hle
    · exact .inr (max_eq_left hle)
    · rw [max_eq_right hle]
      left
      rw [le_div_zpow_iff]
      refine le_trans (zpow_le_zpow_right₀ (by norm_num) ?_) hbelow.le
      norm_num [precision]
      omega

/-- A fraction is near a number if no other one is nearer: it is at most a half of a unit away, or a quarter
below a power of two, and less than that if the significand is odd. -/
structure IsNear (y : ℚ) (m : Nat) (e : Int) : Prop where
  low : (m : ℚ) - 1 / 2 ≤ y / 2 ^ e
  high : y / 2 ^ e ≤ m + 1 / 2
  tie : m % 2 = 0 ∨ (m : ℚ) - 1 / 2 < y / 2 ^ e ∧ y / 2 ^ e < m + 1 / 2
  close : m = 2 ^ (precision - 1) → leastExponent < e → (m : ℚ) - 1 / 4 ≤ y / 2 ^ e

section Nearest

variable {m : Nat} {e : Int} {y : ℚ}

theorem IsNear.pos (h : IsNear y m e) (hm : m ≠ 0) : 0 < y := by
  have hm : (1 : ℚ) ≤ m := by exact_mod_cast Nat.one_le_iff_ne_zero.mpr hm
  have hpos : 0 < y / 2 ^ e := by linarith [h.low]
  exact (div_pos_iff_of_pos_right (zpow_pos (by norm_num) _)).mp hpos

/-- The exponent of a number suits the fractions near it, but for those below a power of two, which the
exponent before it suits. -/
theorem IsNear.suits (h : IsNear y m e) (hn : IsNormal m e) :
    Suits y e ∨ m = 2 ^ (precision - 1) ∧ leastExponent < e ∧ Suits y (e - 1) := by
  have hlt : (m : ℚ) + 1 ≤ 2 ^ precision := by exact_mod_cast Nat.succ_le_of_lt hn.lt
  have hlt' : y / 2 ^ e < 2 ^ precision := by linarith [h.high]
  rcases le_or_gt (2 ^ (precision - 1)) (y / 2 ^ e) with hfull | hsmall
  · exact .inl ⟨hlt', hn.least, .inl hfull⟩
  rcases hn.full with hfull | hleast
  swap
  · exact .inl ⟨hlt', hn.least, .inr hleast⟩
  rcases hn.least.eq_or_lt with hleast | hleast
  · exact .inl ⟨hlt', hn.least, .inr hleast.symm⟩
  have hm : m = 2 ^ (precision - 1) := by
    refine le_antisymm (Nat.le_of_lt_succ ?_) hfull
    have : (m : ℚ) < 2 ^ (precision - 1) + 1 := by linarith [h.low]
    exact_mod_cast this
  have hclose := h.close hm hleast
  have hdouble := div_zpow_pred y e
  have hpow := two_pow_precision
  have hbig : (1 : ℚ) ≤ 2 ^ (precision - 1) := by norm_num [precision]
  rw [hm] at hclose
  push_cast at hclose
  refine .inr ⟨hm, hleast, ?_, Int.le_sub_one_of_lt hleast, .inl ?_⟩
  · rw [hdouble]
    linarith
  · rw [hdouble]
    linarith

/-- Every fraction near a number is rounded to it. -/
theorem ofFraction_eq (negative : Bool) (hd : 0 < x.denominator) (hn : IsNormal m e) (hm : m ≠ 0)
    (h : IsNear x.toRat m e) : ofFraction negative x = finite negative m e := by
  have hy := h.pos hm
  have hnum : 0 < x.numerator := by
    refine Nat.pos_of_ne_zero fun h0 => hy.ne' ?_
    rw [Fraction.toRat, h0, Nat.cast_zero, zero_div]
  have hsuits := suits_exponentOf hnum hd
  rw [ofFraction_eq_exponentOf]
  rcases h.suits hn with hs | ⟨hpow, hleast, hs⟩
  · rw [hs.eq hy hsuits]
    simp only [Fraction.round_unscale_eq hd h.low h.high h.tie]
    simp [hn.lt.ne, not_lt.mpr hn.greatest]
  · -- the significand is rounded up to the next power of two
    have hclose := h.close hpow hleast
    have hdouble := div_zpow_pred x.toRat e
    have hup : (x.unscale 2 (e - 1)).round = 2 ^ precision := by
      have htwo : (2 : ℚ) ^ precision = 2 * m := by
        rw [hpow]
        norm_num [precision]
      have hlt := hs.lt
      apply Fraction.round_unscale_eq hd
      · push_cast
        linarith
      · push_cast
        linarith
      · exact .inl (by norm_num [precision])
    rw [hs.eq hy hsuits]
    simp only [hup]
    simp [not_lt.mpr hn.greatest, hpow]

/-- How far below a number its interval begins, in units. -/
def reach (m : Nat) (e : Int) : ℚ :=
  if m = 2 ^ (precision - 1) ∧ leastExponent < e then 1 / 4 else 1 / 2

theorem toRat_low (hm : m ≠ 0) : (interval m e).low.toRat = (m - reach m e) * 2 ^ e := by
  unfold interval reach
  have htwo : (2 : ℚ) ≠ 0 := by norm_num
  simp only [Nat.pow_eq]
  split_ifs with h
  · rw [Fraction.toRat_scaled, Nat.cast_sub (by omega)]
    push_cast
    rw [zpow_sub₀ htwo]
    ring
  · rw [Fraction.toRat_scaled, Nat.cast_sub (by omega)]
    push_cast
    rw [zpow_sub_one₀ htwo]
    ring

theorem toRat_high : (interval m e).high.toRat = (m + 1 / 2) * 2 ^ e := by
  unfold interval
  rw [Fraction.toRat_scaled, Nat.cast_ofNat, zpow_sub_one₀ (by norm_num)]
  push_cast
  ring

/-- The interval of a number, with the number as the origin and in units. -/
theorem contains_iff (hd : 0 < x.denominator) (hm : m ≠ 0) : (interval m e).contains x ↔
    if m % 2 = 0 then m - reach m e ≤ x.toRat / 2 ^ e ∧ x.toRat / 2 ^ e ≤ m + 1 / 2
    else m - reach m e < x.toRat / 2 ^ e ∧ x.toRat / 2 ^ e < m + 1 / 2 := by
  have hpos : (0 : ℚ) < 2 ^ e := zpow_pos (by norm_num) _
  have hlow : 0 < (interval m e).low.denominator := by
    unfold interval
    dsimp only
    split <;> exact Fraction.denominator_scaled Nat.two_pos
  have hhigh : 0 < (interval m e).high.denominator := Fraction.denominator_scaled Nat.two_pos
  have hclosed : (interval m e).closed = (m % 2 == 0) := rfl
  rw [Interval.contains, hclosed]
  by_cases heven : m % 2 = 0
  · simp only [heven, beq_self_eq_true, if_true, Bool.and_eq_true]
    rw [Fraction.le_iff hlow hd, Fraction.le_iff hd hhigh, toRat_low hm, toRat_high, le_div_iff₀ hpos,
      div_le_iff₀ hpos]
  · simp only [heven, beq_iff_eq, if_false, Bool.and_eq_true]
    rw [Fraction.lt_iff hlow hd, Fraction.lt_iff hd hhigh, toRat_low hm, toRat_high, lt_div_iff₀ hpos,
      div_lt_iff₀ hpos]

theorem reach_bounds (m : Nat) (e : Int) : 1 / 4 ≤ reach m e ∧ reach m e ≤ 1 / 2 := by
  unfold reach
  split_ifs <;> norm_num

/-- The decimals in the interval of a number are near it. -/
theorem isNear_of_contains (hd : 0 < x.denominator) (hm : m ≠ 0) (h : (interval m e).contains x) :
    IsNear x.toRat m e := by
  rw [contains_iff hd hm] at h
  have hreach := reach_bounds m e
  have hle : (m : ℚ) - reach m e ≤ x.toRat / 2 ^ e ∧ x.toRat / 2 ^ e ≤ m + 1 / 2 := by
    split_ifs at h
    · exact h
    · exact ⟨h.1.le, h.2.le⟩
  refine ⟨by linarith, hle.2, ?_, ?_⟩
  · split_ifs at h with heven
    · exact .inl heven
    · exact .inr ⟨by linarith, h.2⟩
  · intro hpow hleast
    have : reach m e = 1 / 4 := if_pos ⟨hpow, hleast⟩
    linarith

/-- What is nearer to a number than its interval reaches lies in the interval. -/
theorem contains_of_near (hd : 0 < x.denominator) (hm : m ≠ 0) (hlow : m - reach m e < x.toRat / 2 ^ e)
    (hhigh : x.toRat / 2 ^ e < m + reach m e) : (interval m e).contains x := by
  have hreach := reach_bounds m e
  rw [contains_iff hd hm]
  split_ifs
  · exact ⟨by linarith, by linarith⟩
  · exact ⟨by linarith, by linarith⟩

theorem lt_pow_length (n : Nat) : n < 10 ^ (Nat.toDigits 10 n).length :=
  (Nat.length_toDigits_le_iff (by norm_num) Nat.length_toDigits_pos).mp le_rfl

theorem pow_length_le {n : Nat} (hn : n ≠ 0) : 10 ^ ((Nat.toDigits 10 n).length - 1) ≤ n := by
  rcases Nat.eq_zero_or_pos ((Nat.toDigits 10 n).length - 1) with h | h
  · rw [h]
    omega
  · by_contra hlt
    have := (Nat.length_toDigits_le_iff (by norm_num) h).mpr (Nat.lt_of_not_le hlt)
    omega

theorem decimal_lt_pow (digits : Nat) {exponent bound : Int}
    (h : (Nat.toDigits 10 digits).length + exponent ≤ bound) :
    (digits : ℚ) * 10 ^ exponent < 10 ^ bound := by
  have hlt : (digits : ℚ) < 10 ^ (Nat.toDigits 10 digits).length := by
    exact_mod_cast lt_pow_length digits
  calc (digits : ℚ) * 10 ^ exponent
      < 10 ^ (Nat.toDigits 10 digits).length * 10 ^ exponent :=
        mul_lt_mul_of_pos_right hlt (zpow_pos (by norm_num) _)
    _ = 10 ^ ((Nat.toDigits 10 digits).length + exponent) := by
        rw [zpow_add₀ (by norm_num), zpow_natCast]
    _ ≤ 10 ^ bound := zpow_le_zpow_right₀ (by norm_num) h

theorem pow_le_decimal {digits : Nat} {exponent bound : Int} (hdigits : digits ≠ 0)
    (h : bound ≤ (Nat.toDigits 10 digits).length + exponent - 1) :
    (10 : ℚ) ^ bound ≤ digits * 10 ^ exponent := by
  have hle : (10 : ℚ) ^ ((Nat.toDigits 10 digits).length - 1) ≤ digits := by
    exact_mod_cast pow_length_le hdigits
  have hlen : 0 < (Nat.toDigits 10 digits).length := Nat.length_toDigits_pos
  calc (10 : ℚ) ^ bound ≤ 10 ^ (((Nat.toDigits 10 digits).length - 1 : Nat) + exponent) :=
        zpow_le_zpow_right₀ (by norm_num) (by omega)
    _ = 10 ^ ((Nat.toDigits 10 digits).length - 1) * 10 ^ exponent := by
        rw [zpow_add₀ (by norm_num), zpow_natCast]
    _ ≤ digits * 10 ^ exponent := mul_le_mul_of_nonneg_right hle (zpow_pos (by norm_num) _).le

theorem two_pow_le_ten_pow : 2 ^ 1075 ≤ 10 ^ 400 := by decide +kernel

theorem two_pow_lt_ten_pow : 2 ^ 1024 < 10 ^ 400 := by decide +kernel

/-- Nothing near a number is too small to be read. -/
theorem IsNear.pow_le (h : IsNear y m e) (hn : IsNormal m e) (hm : m ≠ 0) :
    (10 : ℚ) ^ (-400 : Int) ≤ y := by
  have hm : (1 : ℚ) ≤ m := by exact_mod_cast Nat.one_le_iff_ne_zero.mpr hm
  have hlow : 1 / 2 ≤ y / 2 ^ e := by linarith [h.low]
  rw [le_div_iff₀ (zpow_pos (by norm_num) _)] at hlow
  have hleast : (2 : ℚ) ^ leastExponent ≤ 2 ^ e := zpow_le_zpow_right₀ (by norm_num) hn.least
  have hsmall : (10 : ℚ) ^ (-400 : Int) ≤ 1 / 2 * 2 ^ leastExponent := by
    have : (2 : ℚ) ^ 1075 ≤ 10 ^ 400 := by exact_mod_cast two_pow_le_ten_pow
    rw [leastExponent, zpow_neg, zpow_neg, one_div, ← mul_inv]
    refine inv_anti₀ (by positivity) ?_
    rw [← zpow_one_add₀ (by norm_num)]
    exact this
  linarith

/-- Nothing near a number is too large to be read. -/
theorem IsNear.lt_pow (h : IsNear y m e) (hn : IsNormal m e) : y < (10 : ℚ) ^ (400 : Int) := by
  have hm : (m : ℚ) + 1 ≤ 2 ^ precision := by exact_mod_cast Nat.succ_le_of_lt hn.lt
  have hhigh : y / 2 ^ e ≤ 2 ^ precision := by linarith [h.high]
  rw [div_le_iff₀ (zpow_pos (by norm_num) _)] at hhigh
  have hgreatest : (2 : ℚ) ^ precision * 2 ^ e ≤ 2 ^ precision * 2 ^ greatestExponent :=
    mul_le_mul_of_nonneg_left (zpow_le_zpow_right₀ (by norm_num) hn.greatest) (by norm_num)
  have hlarge : (2 : ℚ) ^ precision * 2 ^ greatestExponent < 10 ^ (400 : Int) := by
    have : (2 : ℚ) ^ 1024 < 10 ^ 400 := by exact_mod_cast two_pow_lt_ten_pow
    rw [← zpow_natCast, ← zpow_add₀ (by norm_num)]
    exact this
  linarith

theorem ne_zero_of_contains {digits : Nat} {exponent : Int} (hm : m ≠ 0)
    (h : (interval m e).contains (.scaled digits 10 exponent)) : digits ≠ 0 := by
  have hpos := (isNear_of_contains (Fraction.denominator_scaled (by norm_num)) hm h).pos hm
  rintro rfl
  simp [Fraction.toRat_scaled] at hpos

/-- Every decimal in the interval of a number is read as the number. -/
theorem ofDecimal_eq (negative : Bool) {digits : Nat} {exponent : Int} (hn : IsNormal m e) (hm : m ≠ 0)
    (h : (interval m e).contains (.scaled digits 10 exponent)) :
    ofDecimal negative digits exponent = finite negative m e := by
  have hd : 0 < (Fraction.scaled digits 10 exponent).denominator :=
    Fraction.denominator_scaled (by norm_num)
  have hnear := isNear_of_contains hd hm h
  have hdigits := ne_zero_of_contains hm h
  have hvalue : (Fraction.scaled digits 10 exponent).toRat = digits * (10 : ℚ) ^ exponent := by
    rw [Fraction.toRat_scaled, Nat.cast_ofNat]
  have hlow : ¬ ((Nat.toDigits 10 digits).length : Int) + exponent < -400 := fun hlt =>
    absurd (decimal_lt_pow digits hlt.le) (not_lt.mpr (hvalue ▸ hnear.pow_le hn hm))
  have hhigh : ¬ 400 < ((Nat.toDigits 10 digits).length : Int) + exponent := fun hlt =>
    absurd (hvalue ▸ hnear.lt_pow hn) (not_lt.mpr (pow_le_decimal hdigits (Int.le_sub_one_of_lt hlt)))
  simp only [ofDecimal, hdigits, hlow, hhigh, or_self, if_false]
  exact ofFraction_eq negative hd hn hm hnear

end Nearest

end QueryLint.Data.Binary64
