import QueryLint.Proofs.Data.Rounding

/-!
# The digits of a binary floating-point number

The decimal that a number is written with lies in the interval of the number, so it is read as the
number. At the latest seventeen digits suffice: half a unit of the last one is less than the number's
interval reaches.
-/
namespace QueryLint.Data.Binary64

variable {x : Fraction} {m : Nat} {e : Int}

/-- A fraction is at most a half away from the number that it is rounded to. -/
theorem Fraction.round_bounds (hx : 0 < x.denominator) :
    (x.round : ℚ) - 1 / 2 ≤ x.toRat ∧ x.toRat ≤ x.round + 1 / 2 := by
  obtain ⟨n, d⟩ := x
  have hdiv : n / d * d + n % d = n := Nat.div_add_mod' n d
  have hmod : n % d < d := Nat.mod_lt n hx
  have hsucc : (n / d + 1) * d = n / d * d + d := Nat.succ_mul _ _
  have hwhole : 2 * (round ⟨n, d⟩ * d) ≤ 2 * n + d ∧ 2 * n ≤ 2 * (round ⟨n, d⟩ * d) + d := by
    simp only [round]
    split_ifs <;> omega
  have hx' : (0 : ℚ) < d := by exact_mod_cast hx
  have hlow : (2 * (round ⟨n, d⟩ * d) : ℚ) ≤ 2 * n + d := by exact_mod_cast hwhole.1
  have hhigh : (2 * n : ℚ) ≤ 2 * (round ⟨n, d⟩ * d) + d := by exact_mod_cast hwhole.2
  simp only [toRat]
  rw [le_div_iff₀ hx', div_le_iff₀ hx']
  constructor <;> linarith

/-- Whether the lower estimate of the decimal magnitude of a power of two is one. -/
def isEstimate (l : Int) : Bool :=
  (Fraction.scaled 1 10 (l * 30103 / 100000 - 1)).le (.scaled 1 2 l)

/-- The estimate is below all powers of two that are numbers, for `30103 / 100000` is a little more than
the decimal logarithm of two. -/
theorem isEstimate_all : ∀ l ∈ List.range 2098, isEstimate (l - 1074) := by decide +kernel

theorem isEstimate_iff {l : Int} :
    isEstimate l ↔ (10 : ℚ) ^ (l * 30103 / 100000 - 1) ≤ 2 ^ l := by
  rw [isEstimate, Fraction.le_iff (Fraction.denominator_scaled (by norm_num))
    (Fraction.denominator_scaled Nat.two_pos), Fraction.toRat_scaled, Fraction.toRat_scaled]
  norm_num

theorem estimate_le (hn : IsNormal m e) (hm : m ≠ 0) :
    (10 : ℚ) ^ (((Nat.log2 m : Int) + e) * 30103 / 100000 - 1) ≤ m * 2 ^ e := by
  have hlog : Nat.log2 m < precision := (Nat.log2_lt hm).mpr hn.lt
  have hleast := hn.least
  have hgreatest := hn.greatest
  simp only [precision, leastExponent, greatestExponent] at hlog hleast hgreatest
  have hrange : ((Nat.log2 m : Int) + e + 1074).toNat ∈ List.range 2098 := by
    rw [List.mem_range]
    omega
  have hestimate := isEstimate_iff.mp (isEstimate_all _ hrange)
  rw [Int.toNat_of_nonneg (by omega), add_sub_cancel_right] at hestimate
  have hle : (2 : ℚ) ^ Nat.log2 m ≤ m := by exact_mod_cast Nat.log2_self_le hm
  refine hestimate.trans ?_
  rw [zpow_add₀ (by norm_num), zpow_natCast]
  exact mul_le_mul_of_nonneg_right hle (zpow_pos (by norm_num) _).le

/-- The search for the magnitude never leaves the number behind. -/
theorem pow_decimalMagnitude_le (hx : 0 < x.denominator) (steps : Nat) {k : Int}
    (h : (10 : ℚ) ^ k ≤ x.toRat) : (10 : ℚ) ^ decimalMagnitude x steps k ≤ x.toRat := by
  induction steps generalizing k with
  | zero => exact h
  | succ steps ih =>
    rw [decimalMagnitude]
    split
    · next hle =>
      rw [Fraction.le_iff (Fraction.denominator_scaled (by norm_num)) hx, Fraction.toRat_scaled] at hle
      exact ih (by simpa using hle)
    · exact h

theorem contains_of_decimalNear {i : Interval} {magnitude : Int} {n : Nat} {d : Decimal}
    (h : decimalNear x i magnitude n = some d) : i.contains (.scaled d.digits 10 d.exponent) := by
  simp only [decimalNear] at h
  split_ifs at h with hnear hother <;> cases h <;> assumption

/-- Half a unit of the seventeenth digit is less than the interval of a number reaches. -/
theorem seventeenth_lt_reach (hn : IsNormal m e) {magnitude : Int}
    (h : (10 : ℚ) ^ magnitude ≤ m * 2 ^ e) : 1 / 2 * 10 ^ (magnitude - 16) < reach m e * 2 ^ e := by
  have hpos : (0 : ℚ) < 2 ^ e := zpow_pos (by norm_num) _
  have hsplit : (10 : ℚ) ^ (magnitude - 16) = 10 ^ magnitude / 10 ^ 16 := by
    rw [zpow_sub₀ (by norm_num)]
    rfl
  have hreach : (m : ℚ) < reach m e * (2 * 10 ^ 16) := by
    unfold reach
    split_ifs with hpow
    · rw [hpow.1]
      norm_num [precision]
    · have : (m : ℚ) < 2 ^ precision := by exact_mod_cast hn.lt
      refine this.trans ?_
      norm_num [precision]
  have hscaled := mul_lt_mul_of_pos_right hreach hpos
  rw [hsplit, ← mul_div_assoc, div_lt_iff₀ (by norm_num)]
  linarith

/-- With seventeen digits there is a decimal in the interval. -/
theorem isSome_decimalNear (hn : IsNormal m e) (hm : m ≠ 0) {magnitude : Int}
    (h : (10 : ℚ) ^ magnitude ≤ m * 2 ^ e) :
    (decimalNear (.scaled m 2 e) (interval m e) magnitude 17).isSome := by
  have hpos : (0 : ℚ) < 2 ^ e := zpow_pos (by norm_num) _
  have hten : (0 : ℚ) < 10 ^ (magnitude - 16) := zpow_pos (by norm_num) _
  have hk : magnitude + 1 - (17 : Nat) = magnitude - 16 := by omega
  have hscaled : 0 < (Fraction.scaled m 2 e).denominator := Fraction.denominator_scaled Nat.two_pos
  obtain ⟨hlow, hhigh⟩ := Fraction.round_bounds
    (Fraction.denominator_unscale (b := 10) (e := magnitude - 16) (by norm_num) hscaled)
  set nearest := (Fraction.unscale (.scaled m 2 e) 10 (magnitude - 16)).round with hnearest
  rw [Fraction.toRat_unscale, Fraction.toRat_scaled, Nat.cast_ofNat, Nat.cast_ofNat] at hlow hhigh
  rw [le_div_iff₀ hten] at hlow
  rw [div_le_iff₀ hten] at hhigh
  have hreach := seventeenth_lt_reach hn h
  have hcontains : (interval m e).contains (.scaled nearest 10 (magnitude - 16)) := by
    refine contains_of_near (Fraction.denominator_scaled (by norm_num)) hm ?_ ?_
    · rw [Fraction.toRat_scaled, Nat.cast_ofNat, lt_div_iff₀ hpos]
      linarith
    · rw [Fraction.toRat_scaled, Nat.cast_ofNat, div_lt_iff₀ hpos]
      linarith
  unfold decimalNear
  simp only [hk, ← hnearest, hcontains, if_true, Option.isSome_some]

/-- The decimal that a number is written with lies in its interval. -/
theorem contains_shortest (hn : IsNormal m e) (hm : m ≠ 0) :
    (interval m e).contains (.scaled (shortest m e).digits 10 (shortest m e).exponent) := by
  have hscaled : 0 < (Fraction.scaled m 2 e).denominator := Fraction.denominator_scaled Nat.two_pos
  have htoRat : (Fraction.scaled m 2 e).toRat = m * 2 ^ e := by
    rw [Fraction.toRat_scaled, Nat.cast_ofNat]
  have hmagnitude := pow_decimalMagnitude_le hscaled 4 (htoRat ▸ estimate_le hn hm)
  rw [htoRat] at hmagnitude
  simp only [shortest]
  generalize hsearch : List.findSome? (decimalNear _ _ _) _ = found
  cases found with
  | some d =>
    obtain ⟨n, -, hd⟩ := List.exists_of_findSome?_eq_some hsearch
    exact contains_of_decimalNear hd
  | none =>
    have hnone := List.findSome?_eq_none_iff.mp hsearch 17 (by decide)
    have hsome := isSome_decimalNear hn hm hmagnitude
    rw [hnone] at hsome
    cases hsome

/-- Any decimal of the same amount as the one that a number is written with is read as the number. -/
theorem ofDecimal_shortest (negative : Bool) (hn : IsNormal m e) (hm : m ≠ 0) {digits : Nat}
    {exponent : Int} (h : (digits : ℚ) * 10 ^ exponent =
      (shortest m e).digits * 10 ^ (shortest m e).exponent) :
    ofDecimal negative digits exponent = finite negative m e := by
  have hcontains := contains_shortest hn hm
  refine ofDecimal_eq negative hn hm ?_
  rw [contains_iff (Fraction.denominator_scaled (by norm_num)) hm, Fraction.toRat_scaled] at hcontains ⊢
  rwa [Nat.cast_ofNat, h]

end QueryLint.Data.Binary64
