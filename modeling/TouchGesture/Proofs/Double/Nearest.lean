import TouchGesture.Proofs.Double.Overflow

/-! The double that an exact result is rounded to depends on nothing but the number: the nearest
count of units, a tie going to the even one, where the unit leaves 53 digits. A greater number is
never rounded to a lesser double. -/

namespace TouchGesture.Double

open Float.Model Float.Model.UnpackedFloat

def roundEven (q : ℚ) : ℕ :=
  if 2 * (q - ⌊q⌋₊) < 1 then ⌊q⌋₊
  else if 2 * (q - ⌊q⌋₊) = 1 then ⌊q⌋₊ + ⌊q⌋₊ % 2
  else ⌊q⌋₊ + 1

theorem floor_le_roundEven (q : ℚ) : ⌊q⌋₊ ≤ roundEven q := by
  rw [roundEven]
  split_ifs <;> omega

theorem roundEven_le_floor (q : ℚ) : roundEven q ≤ ⌊q⌋₊ + 1 := by
  rw [roundEven]
  split_ifs <;> omega

theorem roundEven_mono {q r : ℚ} (order : q ≤ r) : roundEven q ≤ roundEven r := by
  rcases Nat.lt_or_eq_of_le (Nat.floor_mono order) with below | same
  · exact (roundEven_le_floor q).trans (Nat.le_trans below (floor_le_roundEven r))
  · have gap : 2 * (q - ⌊q⌋₊) ≤ 2 * (r - ⌊q⌋₊) := by linarith
    rw [roundEven, roundEven, ← same]
    rcases lt_trichotomy (2 * (r - ⌊q⌋₊)) 1 with less | half | more
    · simp [less, gap.trans_lt less]
    · rcases (gap.trans half.le).lt_or_eq with less | tie
      · simp [less, half]
      · simp [tie, half]
    · rw [if_neg more.not_gt, if_neg more.ne']
      split_ifs <;> omega

theorem roundEven_le {q : ℚ} (nonneg : 0 ≤ q) : (roundEven q : ℚ) ≤ q + 1 / 2 := by
  have floor : (⌊q⌋₊ : ℚ) ≤ q := Nat.floor_le nonneg
  rw [roundEven]
  split_ifs with less half
  · linarith
  · have parity : ((⌊q⌋₊ % 2 : ℕ) : ℚ) ≤ 1 := by
      exact_mod_cast Nat.le_of_lt_succ (Nat.mod_lt _ two_pos)
    push_cast
    linarith
  · have more : 1 < 2 * (q - ⌊q⌋₊) := lt_of_le_of_ne (not_lt.mp less) (Ne.symm half)
    push_cast
    linarith

@[simp] theorem roundEven_natCast (n : ℕ) : roundEven n = n := by
  rw [roundEven, Nat.floor_natCast, sub_self, if_pos (by norm_num)]

theorem roundEven_fraction {m num den : ℕ} (proper : num < den) :
    roundEven (m + num / den) =
      if 2 * num < den then m else if 2 * num = den then m + m % 2 else m + 1 := by
  have parts : (0 : ℚ) < den := by exact_mod_cast Nat.zero_lt_of_lt proper
  have whole : ⌊(m : ℚ) + num / den⌋₊ = m := by
    rw [Nat.floor_eq_iff (by positivity)]
    have little : (num : ℚ) / den < 1 := by
      rw [div_lt_one parts]
      exact_mod_cast proper
    have some : (0 : ℚ) ≤ num / den := by positivity
    constructor <;> linarith
  have less : 2 * ((m : ℚ) + num / den - m) < 1 ↔ 2 * num < den := by
    rw [add_sub_cancel_left, ← mul_div_assoc, div_lt_one parts]
    exact_mod_cast Iff.rfl
  have half : 2 * ((m : ℚ) + num / den - m) = 1 ↔ 2 * num = den := by
    rw [add_sub_cancel_left, ← mul_div_assoc, div_eq_one_iff_eq parts.ne']
    exact_mod_cast Iff.rfl
  simp only [roundEven, whole, less, half]

theorem roundedMantissa_eq_roundEven {m num den : ℕ} (proper : num < den) :
    (withFraction m num den).roundedMantissa = roundEven (m + num / den) := by
  rw [roundedMantissa_withFraction, roundEven_fraction proper]
  split_ifs <;> omega

/-- A number whose target exponent lies above its own is shifted there and rounded. -/
theorem nearest_eq_roundEven {m num den : ℕ} {e : ℤ} (proper : num < den)
    (low : e ≤ target m e) :
    nearest m num den e = roundEven ((m + num / den) * 2 ^ e / 2 ^ target m e) := by
  have parts : (0 : ℚ) < den := by exact_mod_cast Nat.zero_lt_of_lt proper
  generalize shift : (target m e - e).toNat = k
  have landed : target m e = e + k := by omega
  have shifted : ((m : ℚ) + num / den) * 2 ^ e / 2 ^ (e + k) =
      (m / 2 ^ k : ℕ) + (m % 2 ^ k * den + num : ℕ) / (den * 2 ^ k : ℕ) := by
    have digits : (m : ℚ) = 2 ^ k * (m / 2 ^ k : ℕ) + (m % 2 ^ k : ℕ) := by
      exact_mod_cast (Nat.div_add_mod m (2 ^ k)).symm
    rw [zpow_add₀ (by norm_num), zpow_natCast, digits]
    push_cast
    field_simp
    ring
  rw [nearest, shift, shiftRight_withFraction proper,
    roundedMantissa_eq_roundEven (fraction_proper proper k), landed, shifted]

def unit (v : ℚ) : ℤ := max (Int.log 2 v - 52) (-1074)

private theorem log_magnitude {m num den : ℕ} (proper : num < den) (filled : m ≠ 0) (e : ℤ) :
    Int.log 2 (((m : ℚ) + num / den) * 2 ^ e) = m.log2 + e := by
  have low : (2 : ℚ) ^ (m.log2 + e) ≤ ((m : ℚ) + num / den) * 2 ^ e := power_le filled e
  have high := lt_next_power (m := m) proper e
  have positive : 0 < ((m : ℚ) + num / den) * 2 ^ e := lt_of_lt_of_le (by positivity) low
  have below : (m.log2 : ℤ) + e ≤ Int.log 2 (((m : ℚ) + num / den) * 2 ^ e) :=
    (Int.zpow_le_iff_le_log (by norm_num) positive).mp (by exact_mod_cast low)
  have above : Int.log 2 (((m : ℚ) + num / den) * 2 ^ e) < m.log2 + 1 + e :=
    (Int.lt_zpow_iff_log_lt (by norm_num) positive).mp (by exact_mod_cast high)
  omega

theorem target_eq_unit {m num den : ℕ} {e : ℤ} (proper : num < den) (low : e ≤ target m e)
    (some : ((m : ℚ) + num / den) * 2 ^ e ≠ 0) :
    target m e = unit (((m : ℚ) + num / den) * 2 ^ e) := by
  by_cases filled : m = 0
  · -- the number lies below the least unit
    subst filled
    have nonneg : (0 : ℚ) ≤ (((0 : ℕ) : ℚ) + num / den) * 2 ^ e := by positivity
    have below : (((0 : ℕ) : ℚ) + num / den) * 2 ^ e < 2 ^ (1 + e) := by
      have next := lt_next_power (m := 0) proper e
      simpa using next
    have small : Int.log 2 ((((0 : ℕ) : ℚ) + num / den) * 2 ^ e) < 1 + e :=
      (Int.lt_zpow_iff_log_lt (by norm_num) (nonneg.lt_of_ne' some)).mp (by exact_mod_cast below)
    rw [target_eq, Nat.log2_zero] at low ⊢
    rw [unit]
    omega
  · rw [unit, log_magnitude proper filled, target_eq]
    omega

def nearestDouble (s : Sign) (v : ℚ) : UnpackedFloat :=
  carried s (roundEven (v / 2 ^ unit v)) (unit v)

theorem roundWithAccuracy_eq_nearestDouble {s : Sign} {m num den : ℕ} {e : ℤ}
    (proper : num < den) (low : e ≤ target m e) :
    roundWithAccuracy Format.binary64 s m e (accuracyOfFraction num den) =
      nearestDouble s ((m + num / den) * 2 ^ e) := by
  rw [roundWithAccuracy_eq_carried proper low, nearest_eq_roundEven proper low]
  by_cases none : ((m : ℚ) + num / den) * 2 ^ e = 0
  · simp [nearestDouble, none, carried, show roundEven 0 = 0 from roundEven_natCast 0]
  · rw [target_eq_unit proper low none, nearestDouble]

theorem round_eq_nearestDouble {s : Sign} {m : ℕ} {e : ℤ} (filled : m ≠ 0) :
    UnpackedFloat.round Format.binary64 s m e = nearestDouble s (m * 2 ^ e) := by
  obtain ⟨k, f, rounded, low, kept⟩ := round_eq_roundWithAccuracy (s := s) (e := e) filled
  rw [rounded, roundWithAccuracy_eq_nearestDouble Nat.zero_lt_one low, Nat.cast_zero, zero_div,
    add_zero, kept]

section Magnitudes

variable {v w : ℚ}

theorem least_unit (v : ℚ) : -1074 ≤ unit v := le_max_right _ _

theorem unit_mono (positive : 0 < v) (order : v ≤ w) : unit v ≤ unit w := by
  have logs := Int.log_mono_right (b := 2) positive order
  rw [unit, unit]
  omega

theorem carry_le {e f : ℤ} (finer : e < f) : (2 : ℚ) ^ 53 * 2 ^ e ≤ 2 ^ 52 * 2 ^ f := by
  calc (2 : ℚ) ^ 53 * 2 ^ e
      = 2 ^ 52 * 2 ^ (e + 1) := by
        rw [zpow_add₀ (by norm_num), zpow_one]
        ring
    _ ≤ 2 ^ 52 * 2 ^ f :=
        mul_le_mul_of_nonneg_left (zpow_le_zpow_right₀ (by norm_num) finer) (by norm_num)

theorem full_units_le {m : ℕ} (full : 2 ^ 52 ≤ m) (e : ℤ) :
    (2 : ℚ) ^ 52 * 2 ^ e ≤ m * 2 ^ e :=
  mul_le_mul_of_nonneg_right (by exact_mod_cast full) (by positivity)

theorem succ_units_le {m : ℕ} (few : m < 2 ^ 53) (e : ℤ) :
    ((m : ℚ) + 1) * 2 ^ e ≤ 2 ^ 53 * 2 ^ e :=
  mul_le_mul_of_nonneg_right (by exact_mod_cast few) (by positivity)

theorem units_lt (v : ℚ) : v / 2 ^ unit v < 2 ^ 53 := by
  have power : v < 2 ^ (Int.log 2 v + 1) := by
    exact_mod_cast Int.lt_zpow_succ_log_self (R := ℚ) (b := 2) (by norm_num) v
  have exponent : Int.log 2 v + 1 ≤ unit v + 53 := by
    rw [unit]
    omega
  rw [div_lt_iff₀ (by positivity)]
  calc v < 2 ^ (Int.log 2 v + 1) := power
    _ ≤ 2 ^ (unit v + 53) := zpow_le_zpow_right₀ (by norm_num) exponent
    _ = 2 ^ 53 * 2 ^ unit v := by
        rw [zpow_add₀ (by norm_num), mul_comm]
        norm_cast

theorem le_units (positive : 0 < v) (above : -1074 < unit v) : 2 ^ 52 ≤ v / 2 ^ unit v := by
  have power : 2 ^ Int.log 2 v ≤ v := by
    exact_mod_cast Int.zpow_log_le_self (R := ℚ) (b := 2) (by norm_num) positive
  have exponent : unit v + 52 = Int.log 2 v := by
    rw [unit] at above ⊢
    omega
  rw [le_div_iff₀ (by positivity)]
  calc (2 : ℚ) ^ 52 * 2 ^ unit v = 2 ^ (unit v + 52) := by
        rw [zpow_add₀ (by norm_num), mul_comm]
        norm_cast
    _ = 2 ^ Int.log 2 v := by rw [exponent]
    _ ≤ v := power

theorem unit_eq {e : ℤ} (positive : 0 < v) (least : -1074 ≤ e) (few : v < 2 ^ 53 * 2 ^ e)
    (full : 2 ^ 52 * 2 ^ e ≤ v ∨ e = -1074) : unit v = e := by
  apply le_antisymm
  · by_contra coarse
    have digits := le_units positive (least.trans_lt (not_le.mp coarse))
    rw [le_div_iff₀ (by positivity)] at digits
    exact absurd few ((carry_le (not_le.mp coarse)).trans digits).not_gt
  · rcases full with full | rfl
    · by_contra fine
      have digits := units_lt v
      rw [div_lt_iff₀ (by positivity)] at digits
      exact absurd digits ((carry_le (not_le.mp fine)).trans full).not_gt
    · exact least_unit v

theorem roundEven_units_le (v : ℚ) : roundEven (v / 2 ^ unit v) ≤ 2 ^ 53 := by
  have few := roundEven_mono (units_lt v).le
  have whole : roundEven ((2 : ℚ) ^ 53) = 2 ^ 53 := by
    exact_mod_cast roundEven_natCast (2 ^ 53)
  rwa [whole] at few

theorem le_roundEven_units (positive : 0 < v) (above : -1074 < unit v) :
    2 ^ 52 ≤ roundEven (v / 2 ^ unit v) := by
  have full := roundEven_mono (le_units positive above)
  have whole : roundEven ((2 : ℚ) ^ 52) = 2 ^ 52 := by
    exact_mod_cast roundEven_natCast (2 ^ 52)
  rwa [whole] at full

def roundedMagnitude (v : ℚ) : ℚ := roundEven (v / 2 ^ unit v) * 2 ^ unit v

theorem roundedMagnitude_nonneg (v : ℚ) : 0 ≤ roundedMagnitude v := by
  rw [roundedMagnitude]
  positivity

@[simp] theorem roundedMagnitude_zero : roundedMagnitude 0 = 0 := by
  have none : roundEven 0 = 0 := by exact_mod_cast roundEven_natCast 0
  rw [roundedMagnitude, zero_div, none, Nat.cast_zero, zero_mul]

theorem roundedMagnitude_mono (nonneg : 0 ≤ v) (order : v ≤ w) :
    roundedMagnitude v ≤ roundedMagnitude w := by
  rcases nonneg.eq_or_lt with rfl | positive
  · rw [roundedMagnitude_zero]
    exact roundedMagnitude_nonneg w
  rw [roundedMagnitude, roundedMagnitude]
  rcases (unit_mono positive order).eq_or_lt with same | finer
  · rw [same]
    have counts : roundEven (v / 2 ^ unit w) ≤ roundEven (w / 2 ^ unit w) :=
      roundEven_mono (div_le_div_of_nonneg_right order (by positivity))
    exact mul_le_mul_of_nonneg_right (by exact_mod_cast counts) (by positivity)
  · -- the greatest double of a finer unit is the least of the next
    have few : (roundEven (v / 2 ^ unit v) : ℚ) ≤ 2 ^ 53 := by
      exact_mod_cast roundEven_units_le v
    have full : (2 : ℚ) ^ 52 ≤ roundEven (w / 2 ^ unit w) := by
      exact_mod_cast le_roundEven_units (positive.trans_le order) ((least_unit v).trans_lt finer)
    calc (roundEven (v / 2 ^ unit v) : ℚ) * 2 ^ unit v
        ≤ 2 ^ 53 * 2 ^ unit v := mul_le_mul_of_nonneg_right few (by positivity)
      _ ≤ 2 ^ 52 * 2 ^ unit w := carry_le finer
      _ ≤ roundEven (w / 2 ^ unit w) * 2 ^ unit w :=
        mul_le_mul_of_nonneg_right full (by positivity)

end Magnitudes

def rounded (v : ℚ) : ℚ := if v < 0 then -roundedMagnitude (-v) else roundedMagnitude v

theorem rounded_of_nonneg {v : ℚ} (nonneg : 0 ≤ v) : rounded v = roundedMagnitude v :=
  if_neg nonneg.not_gt

@[simp] theorem rounded_zero : rounded 0 = 0 := by
  rw [rounded_of_nonneg le_rfl, roundedMagnitude_zero]

theorem rounded_neg (v : ℚ) : rounded (-v) = -rounded v := by
  rcases lt_trichotomy v 0 with negative | rfl | positive
  · rw [rounded, rounded, if_neg (by linarith), if_pos negative, neg_neg]
  · rw [neg_zero, rounded_zero, neg_zero]
  · rw [rounded, rounded, if_pos (by linarith), if_neg (by linarith), neg_neg]

theorem rounded_mono : Monotone rounded := by
  intro v w order
  rw [rounded, rounded]
  split_ifs with below under above
  · exact neg_le_neg (roundedMagnitude_mono (by linarith) (by linarith))
  · have left := roundedMagnitude_nonneg (-v)
    have right := roundedMagnitude_nonneg w
    linarith
  · linarith
  · exact roundedMagnitude_mono (by linarith) order

theorem rounded_between {u v w : ℚ} (low : u ≤ v) (high : v ≤ w)
    (same : rounded u = rounded w) :
    rounded v = rounded w :=
  (rounded_mono high).antisymm (same ▸ rounded_mono low)

theorem rounded_natCast {n : ℕ} (few : n < 2 ^ 53) : rounded n = n := by
  rcases Nat.eq_zero_or_pos n with rfl | positive
  · rw [Nat.cast_zero, rounded_zero]
  have small : Int.log 2 (n : ℚ) < 53 :=
    (Int.lt_zpow_iff_log_lt (by norm_num) (by positivity)).mp (by exact_mod_cast few)
  generalize units : unit n = t
  have below : t ≤ 0 := by
    rw [← units, unit]
    omega
  obtain ⟨k, rfl⟩ : ∃ k : ℕ, t = -k := ⟨(-t).toNat, by omega⟩
  have whole : (n : ℚ) / 2 ^ (-k : ℤ) = (n * 2 ^ k : ℕ) := by
    rw [zpow_neg, div_inv_eq_mul, zpow_natCast]
    norm_cast
  rw [rounded_of_nonneg (by positivity), roundedMagnitude, units, whole, roundEven_natCast,
    ← whole, div_mul_cancel₀ _ (by positivity)]

theorem abs_rounded (v : ℚ) : |rounded v| = roundedMagnitude |v| := by
  have nonneg := roundedMagnitude_nonneg |v|
  rcases le_total 0 v with positive | negative
  · rw [abs_of_nonneg positive] at nonneg ⊢
    rw [rounded_of_nonneg positive, abs_of_nonneg nonneg]
  · rw [abs_of_nonpos negative] at nonneg ⊢
    have opposite := rounded_neg v
    rw [rounded_of_nonneg (by linarith)] at opposite
    rw [← abs_neg, ← opposite, abs_of_nonneg nonneg]

theorem roundedMagnitude_le {v : ℚ} (least : 2 ^ (-1074 : ℤ) ≤ v) :
    roundedMagnitude v ≤ 2 * v := by
  have positive : 0 < v := lt_of_lt_of_le (by positivity) least
  have one : 1 ≤ v / 2 ^ unit v := by
    rcases (least_unit v).eq_or_lt with same | above
    · rw [← same, one_le_div (by positivity)]
      exact least
    · exact le_trans (by norm_num) (le_units positive above)
  have count : (roundEven (v / 2 ^ unit v) : ℚ) ≤ 2 * (v / 2 ^ unit v) := by
    have floor : (⌊v / 2 ^ unit v⌋₊ : ℚ) ≤ v / 2 ^ unit v := Nat.floor_le (by positivity)
    have next : (roundEven (v / 2 ^ unit v) : ℚ) ≤ ⌊v / 2 ^ unit v⌋₊ + 1 := by
      exact_mod_cast roundEven_le_floor _
    linarith
  calc roundedMagnitude v ≤ 2 * (v / 2 ^ unit v) * 2 ^ unit v :=
        mul_le_mul_of_nonneg_right count (by positivity)
    _ = 2 * v := by rw [mul_assoc, div_mul_cancel₀ _ (by positivity)]

/-- Rounding adds no more than half a unit, which is little beside a number of 53 digits. -/
theorem rounded_le_mul {v : ℚ} (normal : 2 ^ (-1022 : ℤ) ≤ v) :
    rounded v ≤ v * (1 + 1 / 2 ^ 53) := by
  have positive : 0 < v := lt_of_lt_of_le (by positivity) normal
  have count := roundEven_le (q := v / 2 ^ unit v) (by positivity)
  have full : 2 ^ 52 ≤ v / 2 ^ unit v := by
    rcases (least_unit v).eq_or_lt with same | above
    · have least : (2 : ℚ) ^ 52 * 2 ^ (-1074 : ℤ) = 2 ^ (-1022 : ℤ) := by
        rw [← zpow_natCast, ← zpow_add₀ (by norm_num)]
        norm_num
      rwa [← same, le_div_iff₀ (by positivity), least]
    · exact le_units positive above
  rw [rounded_of_nonneg positive.le]
  calc roundedMagnitude v ≤ (v / 2 ^ unit v * (1 + 1 / 2 ^ 53)) * 2 ^ unit v :=
        mul_le_mul_of_nonneg_right (by linarith) (by positivity)
    _ = v * (1 + 1 / 2 ^ 53) := by rw [mul_right_comm, div_mul_cancel₀ _ (by positivity)]

theorem roundedMagnitude_two_zpow {k : ℤ} (normal : -1022 ≤ k) :
    roundedMagnitude (2 ^ k) = 2 ^ k := by
  have units : unit (2 ^ k) = k - 52 := by
    have log : Int.log 2 ((2 : ℚ) ^ k) = k := by
      exact_mod_cast Int.log_zpow (R := ℚ) (b := 2) (by norm_num) k
    rw [unit, log]
    omega
  have whole : (2 : ℚ) ^ k / 2 ^ (k - 52) = (2 ^ 52 : ℕ) := by
    rw [← zpow_sub₀ (by norm_num), sub_sub_cancel]
    norm_cast
  rw [roundedMagnitude, units, whole, roundEven_natCast, ← whole,
    div_mul_cancel₀ _ (by positivity)]

theorem abs_rounded_le {v : ℚ} {k : ℤ} (normal : -1022 ≤ k) (small : |v| ≤ 2 ^ k) :
    |rounded v| ≤ 2 ^ k := by
  rw [abs_rounded, ← roundedMagnitude_two_zpow normal]
  exact roundedMagnitude_mono (abs_nonneg v) small

end TouchGesture.Double
