import TouchGesture.Proofs.Double.Finite

/-! Rounding is to nearest: no double is closer to a number than the one that it is rounded to. -/

namespace TouchGesture.Double

open Float.Model Float.Model.UnpackedFloat

section Magnitudes

variable {q v : ℚ} {m : ℕ} {e : ℤ}

theorem distance_roundEven (nonneg : 0 ≤ q) :
    |q - roundEven q| = min (q - ⌊q⌋₊) (⌊q⌋₊ + 1 - q) := by
  have floor : (⌊q⌋₊ : ℚ) ≤ q := Nat.floor_le nonneg
  have next : q < ⌊q⌋₊ + 1 := Nat.lt_floor_add_one q
  rw [roundEven]
  split_ifs with less half
  · rw [abs_of_nonneg (by linarith), min_eq_left (by linarith)]
  · rcases Nat.mod_two_eq_zero_or_one ⌊q⌋₊ with even | odd
    · rw [even, add_zero, abs_of_nonneg (by linarith), min_eq_left (by linarith)]
    · rw [odd, Nat.cast_add, Nat.cast_one, abs_of_nonpos (by linarith), min_eq_right (by linarith)]
      ring
  · have more : 1 < 2 * (q - ⌊q⌋₊) := lt_of_le_of_ne (not_lt.mp less) (Ne.symm half)
    rw [Nat.cast_add, Nat.cast_one, abs_of_nonpos (by linarith), min_eq_right (by linarith)]
    ring

/-- No whole number is closer than the one that a number is rounded to. -/
theorem roundEven_closest (nonneg : 0 ≤ q) (n : ℕ) : |q - roundEven q| ≤ |q - n| := by
  rw [distance_roundEven nonneg]
  rcases le_or_gt n ⌊q⌋₊ with below | above
  · have low : (n : ℚ) ≤ ⌊q⌋₊ := by exact_mod_cast below
    calc min (q - ⌊q⌋₊) (⌊q⌋₊ + 1 - q)
        ≤ q - ⌊q⌋₊ := min_le_left _ _
      _ ≤ q - n := sub_le_sub_left low q
      _ ≤ |q - n| := le_abs_self _
  · have high : (⌊q⌋₊ + 1 : ℚ) ≤ n := by exact_mod_cast above
    calc min (q - ⌊q⌋₊) (⌊q⌋₊ + 1 - q)
        ≤ ⌊q⌋₊ + 1 - q := min_le_right _ _
      _ ≤ n - q := sub_le_sub_right high q
      _ ≤ |q - n| := by
          rw [abs_sub_comm]
          exact le_abs_self _

theorem roundedMagnitude_closest_units (nonneg : 0 ≤ v) (n : ℕ) :
    |v - roundedMagnitude v| ≤ |v - n * 2 ^ unit v| := by
  have scaled (k : ℕ) : |v - k * 2 ^ unit v| = |v / 2 ^ unit v - k| * 2 ^ unit v := by
    have power : (0 : ℚ) < 2 ^ unit v := by positivity
    rw [← abs_of_pos power, ← abs_mul, abs_of_pos power, sub_mul, div_mul_cancel₀ _ power.ne']
  rw [roundedMagnitude, scaled, scaled]
  exact mul_le_mul_of_nonneg_right (roundEven_closest (by positivity) n) (by positivity)

theorem roundedMagnitude_closest (nonneg : 0 ≤ v) (few : m < 2 ^ 53) (least : -1074 ≤ e) :
    |v - roundedMagnitude v| ≤ |v - m * 2 ^ e| := by
  rcases nonneg.eq_or_lt with rfl | positive
  · rw [roundedMagnitude_zero, sub_zero, abs_zero]
    exact abs_nonneg _
  rcases le_or_gt (unit v) e with coarse | fine
  · obtain ⟨k, exponent⟩ : ∃ k : ℕ, e = k + unit v := ⟨(e - unit v).toNat, by omega⟩
    have units : (m : ℚ) * 2 ^ e = (m * 2 ^ k : ℕ) * 2 ^ unit v := by
      rw [exponent, zpow_add₀ (by norm_num), zpow_natCast, Nat.cast_mul, Nat.cast_pow,
        Nat.cast_ofNat, mul_assoc]
    rw [units]
    exact roundedMagnitude_closest_units nonneg _
  · have full : (2 ^ 52 : ℕ) * 2 ^ unit v ≤ v := by
      rw [← le_div_iff₀ (by positivity)]
      exact_mod_cast le_units positive (by omega)
    have digits : (m : ℚ) ≤ 2 ^ 53 := by exact_mod_cast few.le
    have below : (m : ℚ) * 2 ^ e ≤ (2 ^ 52 : ℕ) * 2 ^ unit v :=
      calc (m : ℚ) * 2 ^ e
          ≤ 2 ^ 53 * 2 ^ e := mul_le_mul_of_nonneg_right digits (by positivity)
        _ ≤ (2 ^ 52 : ℕ) * 2 ^ unit v := by
            rw [Nat.cast_pow, Nat.cast_ofNat]
            exact carry_le fine
    calc |v - roundedMagnitude v|
        ≤ |v - (2 ^ 52 : ℕ) * 2 ^ unit v| := roundedMagnitude_closest_units nonneg _
      _ = v - (2 ^ 52 : ℕ) * 2 ^ unit v := abs_of_nonneg (sub_nonneg.mpr full)
      _ ≤ v - m * 2 ^ e := sub_le_sub_left below v
      _ ≤ |v - m * 2 ^ e| := le_abs_self _

theorem roundEven_of_close {n : ℕ} (nonneg : 0 ≤ q) (close : |q - n| < 1 / 2) :
    roundEven q = n := by
  have closest := roundEven_closest nonneg n
  have apart : |(roundEven q : ℚ) - n| < 1 :=
    calc |(roundEven q : ℚ) - n|
        ≤ |roundEven q - q| + |q - n| := abs_sub_le _ _ _
      _ = |q - roundEven q| + |q - n| := by rw [abs_sub_comm]
      _ < 1 := by linarith
  have whole : |(roundEven q : ℤ) - n| < 1 := by exact_mod_cast apart
  rw [Int.abs_lt_one_iff] at whole
  omega

theorem roundedMagnitude_of_close (positive : 0 < v) (few : m < 2 ^ 53) (least : -1074 ≤ e)
    (full : 2 ^ 52 * 2 ^ e ≤ v ∨ e = -1074) (close : |v - m * 2 ^ e| < 2 ^ e / 2) :
    roundedMagnitude v = m * 2 ^ e := by
  have power : (0 : ℚ) < 2 ^ e := by positivity
  have digits := succ_units_le few e
  have same : unit v = e := by
    apply unit_eq positive least _ full
    linarith [(abs_lt.mp close).2]
  have scaled : |v / 2 ^ e - m| < 1 / 2 := by
    rw [div_sub' power.ne', abs_div, abs_of_pos power, div_lt_iff₀ power, mul_comm (2 ^ e)]
    linarith
  rw [roundedMagnitude, same, roundEven_of_close (by positivity) scaled]

end Magnitudes

section Doubles

variable {v : ℚ} {x z : Float}

theorem exists_units (x : Float) : ∃ (m : ℕ) (e : ℤ), m < 2 ^ 53 ∧ -1074 ≤ e ∧
    |exact x| = m * 2 ^ e := by
  cases unpacked : x.toModel.unpack with
  | notANumber | infinity s | zero s =>
      exact ⟨0, -1074, by norm_num, le_rfl, by simp [exact, unpacked, value]⟩
  | finite s m e positive =>
      obtain ⟨few, least, -⟩ := digits_of_unpack unpacked
      exact ⟨m, e, few, least, abs_exact unpacked⟩

theorem distance_rounded (v : ℚ) : |v - rounded v| = |(|v| - roundedMagnitude |v|)| := by
  rcases le_or_gt 0 v with nonneg | negative
  · rw [rounded_of_nonneg nonneg, abs_of_nonneg nonneg]
  · rw [rounded, if_pos negative, abs_of_neg negative, ← abs_neg]
    congr 1
    ring

/-- No double is closer to a number than what it is rounded to. -/
theorem rounded_closest (v : ℚ) (x : Float) : |v - rounded v| ≤ |v - exact x| := by
  obtain ⟨m, e, few, least, size⟩ := exists_units x
  calc |v - rounded v|
      = |(|v| - roundedMagnitude |v|)| := distance_rounded v
    _ ≤ |(|v| - m * 2 ^ e)| := roundedMagnitude_closest (abs_nonneg v) few least
    _ = |(|v| - |exact x|)| := by rw [size]
    _ ≤ |v - exact x| := abs_abs_sub_abs_le v (exact x)

theorem Nearest.closest (nearest : Nearest z v) (finite : z.isFinite) (x : Float) :
    |v - exact z| ≤ |v - exact x| := by
  rw [nearest.exact_eq finite]
  exact rounded_closest v x

end Doubles

end TouchGesture.Double
