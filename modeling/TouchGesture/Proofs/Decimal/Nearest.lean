import TouchGesture.Proofs.Decimal.Value
import TouchGesture.Proofs.Double.Magnitude

/-! The double that a decimal denotes is the one nearest to it, however far out its exponent is, and
the shortest digits of a double are a decimal that it is nearest to. -/

namespace TouchGesture.Decimal

open Double (Nearest limit ofMagnitude)

def Short (d : Decimal) : Prop := d.digits < 2 ^ 53 ∧ d.exponent.natAbs ≤ 22

instance (d : Decimal) : Decidable d.Short :=
  inferInstanceAs (Decidable (d.digits < 2 ^ 53 ∧ d.exponent.natAbs ≤ 22))

def Ordinary (d : Decimal) : Prop :=
  -(2 ^ 11 + d.digits.log2 : ℤ) ≤ d.exponent ∧ d.exponent ≤ 2 ^ 11

theorem powers : ∀ k : Fin 23, Float.exactlyRepresentablePowersOfTen[k].isFinite ∧
    Double.exact Float.exactlyRepresentablePowersOfTen[k] = 10 ^ (k : ℕ) := by
  decide +kernel

section Products

variable {n : ℕ} {p : Float} {k : ℕ}

theorem nearest_product (few : n < 2 ^ 53) (finite : p.isFinite) (power : Double.exact p = 10 ^ k) :
    Nearest ((UInt64.ofNat n).toFloat * p) (n * 10 ^ (k : ℤ)) := by
  have product :=
    Double.nearest_mul (Double.isFinite_toFloat_ofNat (few.trans (by norm_num))) finite
  rwa [Double.exact_toFloat_ofNat few, power, ← zpow_natCast] at product

theorem nearest_quotient (few : n < 2 ^ 53) (finite : p.isFinite)
    (power : Double.exact p = 10 ^ k) :
    Nearest ((UInt64.ofNat n).toFloat / p) (n * 10 ^ (-k : ℤ)) := by
  have quotient :=
    Double.nearest_div (Double.isFinite_toFloat_ofNat (few.trans (by norm_num))) finite
    (by rw [power]; positivity)
  rwa [Double.exact_toFloat_ofNat few, power, div_eq_mul_inv, ← zpow_natCast,
    ← zpow_neg] at quotient

end Products

variable {d : Decimal}

theorem signed_natAbs (e : ℤ) :
    (if decide (e < 0) then Int.negOfNat e.natAbs else Int.ofNat e.natAbs) = e := by
  by_cases negative : e < 0
  · rw [if_pos (decide_eq_true negative), Int.negOfNat_eq, Int.ofNat_eq_natCast]
    omega
  · rw [if_neg (by simpa using negative), Int.ofNat_eq_natCast]
    omega

/-- A short decimal is one multiplication or division of doubles, and any other is rounded from its
exact value. -/
theorem nearest_ofScientific (ordinary : d.Ordinary) :
    Nearest (Float.ofScientific d.digits (d.exponent < 0) d.exponent.natAbs) d.value := by
  rw [Float.ofScientific, value]
  by_cases short : d.digits < 2 ^ 53 ∧ d.exponent.natAbs ≤ 22
  · obtain ⟨few, small⟩ := short
    obtain ⟨finite, power⟩ := powers ⟨d.exponent.natAbs, by omega⟩
    rw [dif_pos ⟨few, small⟩]
    by_cases negative : d.exponent < 0
    · have quotient := nearest_quotient few finite power
      have exponent : (-(d.exponent.natAbs : ℤ)) = d.exponent := by omega
      rw [exponent] at quotient
      rw [if_pos (decide_eq_true negative)]
      exact quotient
    · have product := nearest_product few finite power
      have exponent : (d.exponent.natAbs : ℤ) = d.exponent := by omega
      rw [exponent] at product
      rw [if_neg (by simpa using negative)]
      exact product
  · rw [dif_neg short, signed_natAbs]
    exact ⟨_, Double.isNearest_ofScientific ordinary.1 ordinary.2, rfl⟩

theorem ofScientific_of_extraordinary (extraordinary : ¬ d.Ordinary) :
    Float.ofScientific d.digits (d.exponent < 0) d.exponent.natAbs =
      .ofModel (.pack (.ofScientific .binary64 d.digits d.exponent)) := by
  have long : ¬ (d.digits < 2 ^ 53 ∧ d.exponent.natAbs ≤ 22) := by
    rintro ⟨-, small⟩
    exact extraordinary ⟨by omega, by omega⟩
  rw [Float.ofScientific, dif_neg long, signed_natAbs]
  rfl

theorem limit_le_value (filled : d.digits ≠ 0) (above : 2 ^ 11 < d.exponent) :
    limit ≤ d.value := by
  have one : (1 : ℚ) ≤ d.digits := by exact_mod_cast Nat.one_le_iff_ne_zero.mpr filled
  calc limit
      ≤ 2 ^ (1024 : ℤ) := by
        rw [limit, zpow_ofNat]
        exact sub_le_self _ (by positivity)
    _ ≤ 2 ^ d.exponent := zpow_le_zpow_right₀ (by norm_num) (by omega)
    _ ≤ 10 ^ d.exponent := zpow_le_zpow_left₀ (by omega) (by norm_num) (by norm_num)
    _ ≤ d.digits * 10 ^ d.exponent := le_mul_of_one_le_left (by positivity) one

theorem value_lt_least (below : d.exponent < -(2 ^ 11 + d.digits.log2 : ℤ)) :
    d.value < 2 ^ (-1075 : ℤ) := by
  have digits : (d.digits : ℚ) < 2 ^ ((d.digits.log2 : ℤ) + 1) := by
    exact_mod_cast Nat.lt_log2_self (n := d.digits)
  have power : (10 : ℚ) ^ d.exponent ≤ 2 ^ d.exponent := by
    obtain ⟨k, exponent⟩ : ∃ k : ℕ, d.exponent = -k := ⟨(-d.exponent).toNat, by omega⟩
    rw [exponent, zpow_neg, zpow_neg, zpow_natCast, zpow_natCast]
    exact inv_anti₀ (by positivity) (pow_le_pow_left₀ (by norm_num) (by norm_num) k)
  calc (d.digits : ℚ) * 10 ^ d.exponent
      < 2 ^ ((d.digits.log2 : ℤ) + 1) * 10 ^ d.exponent :=
        mul_lt_mul_of_pos_right digits (by positivity)
    _ ≤ 2 ^ ((d.digits.log2 : ℤ) + 1) * 2 ^ d.exponent :=
      mul_le_mul_of_nonneg_left power (by positivity)
    _ = 2 ^ ((d.digits.log2 : ℤ) + 1 + d.exponent) := (zpow_add₀ (by norm_num) _ _).symm
    _ ≤ 2 ^ (-1075 : ℤ) := zpow_le_zpow_right₀ (by norm_num) (by omega)

theorem ofScientific_eq_ofMagnitude (tidy : d.Tidy) :
    Float.ofScientific d.digits (d.exponent < 0) d.exponent.natAbs =
      ofMagnitude .positive d.value := by
  by_cases none : d.digits = 0
  · have zero : d.value = 0 := by rw [value, none, Nat.cast_zero, zero_mul]
    rw [zero, Double.ofMagnitude_of_lt_least le_rfl (by positivity), none, tidy none]
    decide +kernel
  by_cases ordinary : d.Ordinary
  · have positive : 0 < d.value := by
      rw [value]
      positivity
    exact (nearest_ofScientific ordinary).eq_ofMagnitude positive
  -- farther out the digits are not looked at
  rw [ofScientific_of_extraordinary ordinary, Float.Model.UnpackedFloat.ofScientific, dif_neg none]
  by_cases above : d.exponent > 2 ^ 11
  · rw [Double.ofMagnitude_of_limit_le (limit_le_value none above)]
    exact congrArg _ (congrArg _ (if_pos above))
  · have below : d.exponent < -(2 ^ 11 + d.digits.log2 : ℤ) := by
      by_contra inside
      exact ordinary ⟨not_lt.mp inside, not_lt.mp above⟩
    rw [Double.ofMagnitude_of_lt_least d.value_nonneg (value_lt_least below)]
    exact congrArg _ (congrArg _ ((if_neg above).trans (if_pos below)))

theorem toFloat_eq_ofMagnitude (d : Decimal) : d.toFloat = ofMagnitude .positive d.value := by
  rw [← value_normal]
  exact ofScientific_eq_ofMagnitude d.tidy_normal

/-- A decimal denotes the double nearest to it. -/
theorem nearest_toFloat (d : Decimal) : Nearest d.toFloat d.value := by
  have nearest := Double.nearest_ofMagnitude .positive d.value_nonneg
  rwa [Double.factor, one_mul, ← toFloat_eq_ofMagnitude] at nearest

section Power

variable {k : ℕ}

theorem nearest_power (k : ℕ) : Nearest (toFloat ⟨1, k⟩) (10 ^ k) := by
  have nearest := nearest_toFloat ⟨1, k⟩
  rwa [value_power, zpow_natCast] at nearest

theorem isFinite_power (small : k ≤ 308) : (toFloat ⟨1, k⟩).isFinite := by
  have bound : (10 : ℚ) ^ k ≤ 10 ^ 308 := pow_le_pow_right₀ (by norm_num) small
  have last : 10 ^ 308 + 2 ^ 970 < 2 ^ 1024 := by decide +kernel
  rw [(nearest_power k).isFinite_iff, abs_of_nonneg (by positivity), Double.limit]
  exact bound.trans_lt (lt_sub_iff_add_lt.mpr (by exact_mod_cast last))

theorem exact_power (small : k ≤ 22) : Double.exact (toFloat ⟨1, k⟩) = 10 ^ k := by
  obtain ⟨-, power⟩ := powers ⟨k, by omega⟩
  have double : Double.rounded (10 ^ k) = 10 ^ k := by
    rw [← power]
    exact Double.rounded_exact _
  rw [(nearest_power k).exact_eq (isFinite_power (by omega)), double]

end Power

section Shortest

variable {tie : Tie} {x : Float} {m : ℕ} {q : ℤ}

theorem nearest_shortest (finite : x.isFinite) (number : Double.exact x = m * 2 ^ q) :
    Nearest x (shortest tie x m q).value := by
  rcases shortest_cases tie x m q with ⟨d, rfl, found⟩ | same
  · rw [found, value_normal]
    exact nearest_toFloat d
  · rw [same, ← number]
    exact Double.nearest_self finite

theorem value_shortest_pos (finite : x.isFinite) (number : Double.exact x = m * 2 ^ q)
    (positive : 0 < m) :
    0 < (shortest tie x m q).value := by
  have nearest : Nearest x (shortest tie x m q).value := nearest_shortest finite number
  apply (value_nonneg _).lt_of_ne'
  intro none
  rw [none] at nearest
  have zero := nearest.exact_eq finite
  rw [Double.rounded_zero, number] at zero
  exact absurd zero (by positivity)

end Shortest

end TouchGesture.Decimal
