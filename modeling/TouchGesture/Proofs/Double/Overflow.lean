import TouchGesture.Proofs.Double.Rounding

/-! Which results are too large for a double. Rounding to nearest decides it: the first number that
overflows lies half a unit above the greatest double. -/

namespace TouchGesture.Double

open Float.Model Float.Model.UnpackedFloat

/-- The least number that is rounded to infinity. -/
def limit : ℚ := 2 ^ 1024 - 2 ^ 970

theorem limit_eq : limit = (2 ^ 54 - 1) * 2 ^ 970 := by
  rw [limit, show (1024 : Nat) = 54 + 970 from rfl, pow_add, sub_mul, one_mul]

theorem limit_pos : 0 < limit := by
  rw [limit_eq]
  exact mul_pos (by norm_num) (by positivity)

theorem natCast_lt_limit {n k : ℕ} (few : n < 2 ^ k) (small : k ≤ 970) :
    |(n : ℚ)| < limit := by
  rw [abs_of_nonneg n.cast_nonneg, limit_eq]
  calc (n : ℚ) < 2 ^ k := by exact_mod_cast few
    _ ≤ 2 ^ 970 := pow_le_pow_right₀ (by norm_num) small
    _ ≤ (2 ^ 54 - 1) * 2 ^ 970 := le_mul_of_one_le_left (by positivity) (by norm_num)

theorem two_zpow_971 : (2 : ℚ) ^ (971 : Int) = 2 * 2 ^ 970 := by
  rw [zpow_ofNat, show (971 : Nat) = 1 + 970 from rfl, pow_add, pow_one]

def Fits : UnpackedFloat → Prop
  | .notANumber | .infinity _ => False
  | .zero _ => True
  | .finite _ _ e _ => e < 972

theorem fits_carried_iff {s : Sign} {r : Nat} {t : Int} :
    Fits (carried s r t) ↔ r = 0 ∨ t < 971 ∨ t = 971 ∧ r < 2 ^ 53 := by
  by_cases none : r = 0
  · simp [carried, Fits, none]
  · by_cases few : r < 2 ^ 53
    · rw [carried, dif_neg none, if_pos few]
      simp only [Fits]
      omega
    · rw [carried, dif_neg none, if_neg few]
      simp only [Fits]
      omega

section Magnitude

variable {m num den : Nat}

private theorem fraction_lt_one (proper : num < den) : (num : ℚ) / den < 1 := by
  have parts : (0 : ℚ) < den := by exact_mod_cast Nat.zero_lt_of_lt proper
  rw [div_lt_iff₀ parts, one_mul]
  exact_mod_cast proper

theorem lt_next_power (proper : num < den) (e : Int) :
    ((m : ℚ) + num / den) * 2 ^ e < 2 ^ (m.log2 + 1 + e) := by
  have digits : (m : ℚ) + 1 ≤ 2 ^ (m.log2 + 1) := by exact_mod_cast Nat.lt_log2_self (n := m)
  have split : (2 : ℚ) ^ ((m.log2 : Int) + 1 + e) = 2 ^ (m.log2 + 1) * 2 ^ e := by
    rw [zpow_add₀ (by norm_num)]
    norm_cast
  rw [split]
  apply mul_lt_mul_of_pos_right _ (by positivity)
  linarith [fraction_lt_one proper]

theorem power_le (filled : m ≠ 0) (e : Int) :
    (2 : ℚ) ^ (m.log2 + e) ≤ ((m : ℚ) + num / den) * 2 ^ e := by
  have digits : (2 : ℚ) ^ m.log2 ≤ m := by exact_mod_cast Nat.log2_self_le filled
  have fraction : (0 : ℚ) ≤ num / den := div_nonneg (Nat.cast_nonneg num) (Nat.cast_nonneg den)
  have unit : (0 : ℚ) < 2 ^ e := by positivity
  rw [zpow_add₀ (by norm_num), zpow_natCast]
  apply mul_le_mul_of_nonneg_right _ unit.le
  linarith

theorem power_le_of_target {e : Int} (low : e ≤ target m e) (above : -1074 < target m e) :
    (2 : ℚ) ^ (target m e + 52) ≤ ((m : ℚ) + num / den) * 2 ^ e := by
  have exponent : target m e = m.log2 + 1 + e - 53 := by
    rw [target_eq] at above ⊢
    omega
  have filled : m ≠ 0 := by
    rintro rfl
    rw [Nat.log2_zero] at exponent
    omega
  have digits : target m e + 52 = m.log2 + e := by omega
  rw [digits]
  exact power_le filled e

theorem lt_limit_of_target {e : Int} (proper : num < den) (small : target m e < 971) :
    ((m : ℚ) + num / den) * 2 ^ e < limit := by
  have exponent : (m.log2 : Int) + 1 + e ≤ 1023 := by
    rw [target_eq] at small
    omega
  calc ((m : ℚ) + num / den) * 2 ^ e
      < 2 ^ (m.log2 + 1 + e) := lt_next_power proper e
    _ ≤ 2 ^ (1023 : Int) := zpow_le_zpow_right₀ (by norm_num) exponent
    _ = 2 ^ 53 * 2 ^ 970 := by rw [← pow_add, zpow_ofNat]
    _ < (2 ^ 54 - 1) * 2 ^ 970 := mul_lt_mul_of_pos_right (by norm_num) (by positivity)
    _ = limit := limit_eq.symm

/-- A rounded result is finite exactly below the limit. -/
theorem fits_roundWithAccuracy_iff {s : Sign} {e : Int} (proper : num < den)
    (low : e ≤ target m e) :
    Fits (roundWithAccuracy Format.binary64 s m e (accuracyOfFraction num den)) ↔
      ((m : ℚ) + num / den) * 2 ^ e < limit := by
  rw [roundWithAccuracy_eq_carried proper low, fits_carried_iff]
  -- the nearest mantissa decides at the greatest exponent only
  rcases Int.lt_trichotomy (target m e) 971 with small | edge | large
  · have below := lt_limit_of_target proper small
    exact ⟨fun _ => below, fun _ => Or.inr (Or.inl small)⟩
  · have full := even_le_nearest_iff (n := 2 ^ 53) proper (by norm_num) low
    have half : (((2 ^ 53 : Nat) : ℚ) - 1 / 2) * 2 ^ (971 : Int) = limit := by
      rw [limit_eq, two_zpow_971, ← mul_assoc]
      norm_num
    rw [edge, half] at full
    have below := not_congr full
    rw [not_le, not_le] at below
    rw [edge, ← below]
    omega
  · have power : (2 : ℚ) ^ (target m e + 52) ≤ ((m : ℚ) + num / den) * 2 ^ e :=
      power_le_of_target low (by omega)
    have overflow : limit ≤ ((m : ℚ) + num / den) * 2 ^ e :=
      calc limit
          ≤ 2 ^ (1024 : Int) := by
            rw [limit, zpow_ofNat]
            exact sub_le_self _ (by positivity)
        _ ≤ 2 ^ (target m e + 52) := zpow_le_zpow_right₀ (by norm_num) (by omega)
        _ ≤ _ := power
    have filled : 2 ≤ nearest m num den e := by
      rw [even_le_nearest_iff proper rfl low]
      calc (((2 : Nat) : ℚ) - 1 / 2) * 2 ^ target m e
          ≤ 2 ^ (52 : Int) * 2 ^ target m e :=
            mul_le_mul_of_nonneg_right (by norm_num) (by positivity)
        _ = 2 ^ (target m e + 52) := by rw [zpow_add₀ (by norm_num), mul_comm]
        _ ≤ _ := power
    constructor
    · omega
    · intro below
      exact absurd below (not_lt_of_ge overflow)

end Magnitude

section Exact

variable {m : Nat} {e : Int}

theorem decreaseExponent_snd (m : Nat) (e t : Int) : (decreaseExponent m e t).2 = min e t := by
  change e - ((e - t).toNat : Int) = min e t
  omega

theorem decreaseExponent_value (m : Nat) (e t : Int) :
    ((decreaseExponent m e t).1 : ℚ) * 2 ^ (decreaseExponent m e t).2 = m * 2 ^ e := by
  change ((m <<< (e - t).toNat : Nat) : ℚ) * 2 ^ (e - ((e - t).toNat : Int)) = m * 2 ^ e
  rw [Nat.shiftLeft_eq, zpow_sub₀ (by norm_num), zpow_natCast]
  push_cast
  field_simp

private theorem log2_shiftLeft (filled : m ≠ 0) (j : Nat) : (m <<< j).log2 = m.log2 + j := by
  induction j with
  | zero => rfl
  | succ j ih =>
      have still : m <<< j ≠ 0 := by
        rw [Nat.shiftLeft_eq]
        exact Nat.mul_ne_zero filled (Nat.ne_of_gt (Nat.two_pow_pos j))
      rw [Nat.shiftLeft_succ, Nat.log2_two_mul still, ih, Nat.add_assoc]

/-- Before a number is rounded its mantissa is written with as many digits as a double has. -/
theorem round_eq_roundWithAccuracy {s : Sign} (filled : m ≠ 0) :
    ∃ k f, round Format.binary64 s m e =
        roundWithAccuracy Format.binary64 s k f (accuracyOfFraction 0 1) ∧
      f ≤ target k f ∧ (k : ℚ) * 2 ^ f = m * 2 ^ e := by
  have digits := log2_shiftLeft filled (e - target m e).toNat
  refine ⟨_, _, rfl, ?_, decreaseExponent_value m e (target m e)⟩
  have same := target_eq m e
  change e - ((e - target m e).toNat : Int) ≤
    target (m <<< (e - target m e).toNat) (e - ((e - target m e).toNat : Int))
  rw [target_eq (m <<< (e - target m e).toNat), digits]
  omega

end Exact

end TouchGesture.Double
