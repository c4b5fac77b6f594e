import TouchGesture.Proofs.Decimal.Nearest
import TouchGesture.Proofs.Double.Closest

/-! No decimal of fewer digits is read as a double than the shortest one that is written of it: the
grids are tried from the coarsest on, and a grid has a decimal that is read as the double if any
grid above it has one. -/

namespace TouchGesture.Decimal

open Double (limit rounded)

section Reading

variable {x : Float} {a b d : Decimal}

/-- The decimals that are read as a double are those that are rounded to it. -/
theorem toFloat_eq_iff (finite : x.isFinite) (some : Double.exact x ≠ 0) :
    d.toFloat = x ↔ d.value < limit ∧ rounded d.value = Double.exact x := by
  have nearest := nearest_toFloat d
  have reached : d.toFloat.isFinite ↔ d.value < limit := by
    rw [nearest.isFinite_iff, abs_of_nonneg d.value_nonneg]
  constructor
  · rintro rfl
    exact ⟨reached.mp finite, (nearest.exact_eq finite).symm⟩
  · rintro ⟨small, same⟩
    have exact := nearest.exact_eq (reached.mpr small)
    have self := Double.nearest_self (reached.mpr small)
    rw [exact, same] at self
    exact self.unique (Double.nearest_self finite) some

/-- What lies between a double and a decimal that is read as it is read as it too. -/
theorem toFloat_between (finite : x.isFinite) (some : Double.exact x ≠ 0) (read : a.toFloat = x)
    (between : a.value ≤ b.value ∧ b.value ≤ Double.exact x ∨
      Double.exact x ≤ b.value ∧ b.value ≤ a.value) : b.toFloat = x := by
  obtain ⟨small, same⟩ := (toFloat_eq_iff finite some).mp read
  have self := Double.rounded_exact x
  rw [toFloat_eq_iff finite some]
  rcases between with ⟨low, high⟩ | ⟨low, high⟩
  · have less : b.value < limit := high.trans_lt (lt_of_abs_lt (Double.exact_bounded x))
    exact ⟨less, (Double.rounded_between low high (same.trans self.symm)).trans self⟩
  · exact ⟨high.trans_lt small,
      (Double.rounded_between low high (self.trans same.symm)).trans same⟩

end Reading

section Grid

variable {tie : Tie} {x : Float} {m : ℕ} {q e : ℤ} {d : Decimal}

theorem two_zpow_eq (q : ℤ) : (2 : ℚ) ^ q = 2 ^ q.toNat / 2 ^ (-q).toNat := by
  rw [← zpow_natCast, ← zpow_natCast, ← zpow_sub₀ (by norm_num)]
  congr 1
  omega

theorem ten_zpow_eq (e : ℤ) : (10 : ℚ) ^ e = 10 ^ e.toNat / 10 ^ (-e).toNat := by
  rw [← zpow_natCast, ← zpow_natCast, ← zpow_sub₀ (by norm_num)]
  congr 1
  omega

theorem ratio_eq (m : ℕ) (q e : ℤ) :
    0 < (ratio m q e).2 ∧ ((ratio m q e).1 : ℚ) / (ratio m q e).2 = m * 2 ^ q / 10 ^ e := by
  simp only [ratio, Nat.shiftLeft_eq, Nat.pow_eq]
  refine ⟨by positivity, ?_⟩
  push_cast
  rw [two_zpow_eq, ten_zpow_eq]
  field_simp

theorem below_iff (m : ℕ) (q k : ℤ) : below m q k ↔ (m : ℚ) * 2 ^ q < 10 ^ k := by
  have digits : below m q k ↔
      m * 2 ^ q.toNat * 10 ^ (-k).toNat < 10 ^ k.toNat * 2 ^ (-q).toNat := by
    simp [below, Nat.shiftLeft_eq]
  rw [digits, two_zpow_eq, ten_zpow_eq, mul_div_assoc',
    div_lt_div_iff₀ (by positivity) (by positivity)]
  exact_mod_cast Iff.rfl

theorem units_eq_floor (m : ℕ) (q e : ℤ) :
    units m q e = ⌊(m : ℚ) * 2 ^ q / 10 ^ e⌋₊ := by
  rw [← (ratio_eq m q e).2, Nat.floor_div_eq_div, units]

theorem units_le (m : ℕ) (q e : ℤ) : (units m q e : ℚ) * 10 ^ e ≤ m * 2 ^ q := by
  rw [units_eq_floor, ← le_div_iff₀ (by positivity)]
  exact Nat.floor_le (by positivity)

theorem lt_units_add_one (m : ℕ) (q e : ℤ) :
    (m : ℚ) * 2 ^ q < (units m q e + 1 : ℕ) * 10 ^ e := by
  rw [units_eq_floor, ← div_lt_iff₀ (by positivity)]
  push_cast
  exact Nat.lt_floor_add_one _

theorem isSome_onGrid_iff : (onGrid tie x m q e).isSome ↔
    (⟨units m q e, e⟩ : Decimal).toFloat = x ∨
    (⟨units m q e + 1, e⟩ : Decimal).toFloat = x := by
  simp only [onGrid, units]
  by_cases low : (⟨(ratio m q e).1 / (ratio m q e).2, e⟩ : Decimal).toFloat = x
  · by_cases high : (⟨(ratio m q e).1 / (ratio m q e).2 + 1, e⟩ : Decimal).toFloat = x
    · simp only [low, high, decide_true, true_or, iff_true]
      split <;> rfl
    · simp [low, high]
  · by_cases high : (⟨(ratio m q e).1 / (ratio m q e).2 + 1, e⟩ : Decimal).toFloat = x
    · simp [low, high]
    · simp [low, high]

theorem digits_of_onGrid (found : onGrid tie x m q e = some d) : d.digits ≤ units m q e + 1 := by
  rcases (neighbour_of_onGrid found).1 with rfl | rfl
  · exact Nat.le_succ _
  · exact le_rfl

theorem isSome_onGrid (finite : x.isFinite) (number : Double.exact x = m * 2 ^ q)
    (some : Double.exact x ≠ 0)
    (read : d.toFloat = x) (fine : e ≤ d.exponent) : (onGrid tie x m q e).isSome := by
  obtain ⟨j, exponent⟩ := Int.le.dest fine
  have grid : d.value = (d.digits * 10 ^ j : ℕ) * 10 ^ e := by
    rw [value, ← exponent, zpow_add₀ (by norm_num), zpow_natCast]
    push_cast
    ring
  have unit : (0 : ℚ) < 10 ^ e := by positivity
  rw [isSome_onGrid_iff]
  rcases le_or_gt d.value (Double.exact x) with low | high
  · left
    have count : d.digits * 10 ^ j ≤ units m q e := by
      rw [units_eq_floor, ← number]
      apply Nat.le_floor
      rwa [le_div_iff₀ unit, ← grid]
    apply toFloat_between finite some read
    left
    constructor
    · rw [grid]
      exact mul_le_mul_of_nonneg_right (by exact_mod_cast count) unit.le
    · rw [number]
      exact units_le m q e
  · right
    have count : units m q e + 1 ≤ d.digits * 10 ^ j := by
      rw [units_eq_floor, ← number, Nat.succ_le_iff,
        Nat.floor_lt (div_nonneg (number ▸ by positivity) unit.le), div_lt_iff₀ unit, ← grid]
      exact high
    apply toFloat_between finite some read
    right
    constructor
    · rw [number]
      exact (lt_units_add_one m q e).le
    · rw [grid]
      exact mul_le_mul_of_nonneg_right (by exact_mod_cast count) unit.le

end Grid

section Scale

variable {m : ℕ} {q : ℤ}

def estimate (l : ℤ) : ℤ := (l * 30103).fdiv 100000

theorem estimate_close : ∀ i : ℕ, i < 2098 →
    ¬ below 1 (i - 1074) (estimate (i - 1074) - 1) ∧
    below 1 (i - 1073) (estimate (i - 1074) + 3) := by
  decide +kernel

theorem estimate_spec {l : ℤ} (least : -1074 ≤ l) (most : l ≤ 1023) :
    (10 : ℚ) ^ (estimate l - 1) ≤ 2 ^ l ∧ (2 : ℚ) ^ (l + 1) < 10 ^ (estimate l + 3) := by
  obtain ⟨i, same⟩ := Int.eq_ofNat_of_zero_le (show 0 ≤ l + 1074 by omega)
  obtain ⟨low, high⟩ := estimate_close i (by omega)
  have here : (i : ℤ) - 1074 = l := by omega
  have next : (i : ℤ) - 1073 = l + 1 := by omega
  rw [here, below_iff, Nat.cast_one, one_mul, not_lt] at low
  rw [here, next, below_iff, Nat.cast_one, one_mul] at high
  exact ⟨low, high⟩

/-- The scale of a double is the least power of ten above it. -/
theorem scale_spec (positive : 0 < m) (few : m < 2 ^ 53) (least : -1074 ≤ q) (most : q ≤ 971) :
    (m : ℚ) * 2 ^ q < 10 ^ scale m q ∧ (10 : ℚ) ^ (scale m q - 1) ≤ m * 2 ^ q := by
  have digits : m.log2 < 53 := (Nat.log2_lt positive.ne').mpr few
  obtain ⟨low, high⟩ := estimate_spec (l := m.log2 + q) (by omega) (by omega)
  have first : (2 : ℚ) ^ (m.log2 + q : ℤ) ≤ m * 2 ^ q := by
    rw [zpow_add₀ (by norm_num), zpow_natCast]
    exact mul_le_mul_of_nonneg_right (by exact_mod_cast Nat.log2_self_le positive.ne')
      (by positivity)
  have last : (m : ℚ) * 2 ^ q < 2 ^ (m.log2 + q + 1 : ℤ) := by
    have power : (m.log2 + q + 1 : ℤ) = ((m.log2 + 1 : ℕ) : ℤ) + q := by
      push_cast
      ring
    rw [power, zpow_add₀ (by norm_num), zpow_natCast]
    exact mul_lt_mul_of_pos_right (by exact_mod_cast Nat.lt_log2_self) (by positivity)
  have above {k j : ℤ} (reached : ¬ below m q k) (next : j - 1 = k) :
      (10 : ℚ) ^ (j - 1) ≤ m * 2 ^ q := by
    rw [next]
    exact not_lt.mp (mt (below_iff m q k).mpr reached)
  simp only [scale]
  split_ifs with zero one two
  · exact ⟨(below_iff ..).mp zero, low.trans first⟩
  · exact ⟨(below_iff ..).mp one, above zero (by ring)⟩
  · exact ⟨(below_iff ..).mp two, above one (by ring)⟩
  · exact ⟨last.trans high, above two (by ring)⟩

end Scale

section Digits

variable {tie : Tie} {x : Float} {m n : ℕ} {q : ℤ} {positive : 0 < m} {d : Decimal} {v : ℚ}

/-- A number that at most `n` digits and a power of ten are enough for. -/
def HasDigits (n : ℕ) (v : ℚ) : Prop := ∃ d : Decimal, d.digits < 10 ^ n ∧ d.value = v

theorem HasDigits.mono {k : ℕ} (few : HasDigits n v) (more : n ≤ k) : HasDigits k v := by
  obtain ⟨d, digits, number⟩ := few
  exact ⟨d, digits.trans_le (Nat.pow_le_pow_right (by norm_num) more), number⟩

theorem hasDigits_zero (n : ℕ) : HasDigits n 0 :=
  ⟨⟨0, 0⟩, by positivity, zero_mul _⟩

theorem value_le_power {e : ℤ} (few : d.digits ≤ 10 ^ n) (small : n + d.exponent ≤ e) :
    d.value ≤ 10 ^ e :=
  calc (d.digits : ℚ) * 10 ^ d.exponent
      ≤ 10 ^ n * 10 ^ d.exponent :=
        mul_le_mul_of_nonneg_right (by exact_mod_cast few) (by positivity)
    _ = 10 ^ (n + d.exponent) := by rw [zpow_add₀ (by norm_num), zpow_natCast]
    _ ≤ 10 ^ e := zpow_le_zpow_right₀ (by norm_num) small

theorem hasDigits_of_le (few : d.digits ≤ 10 ^ (n + 1)) : HasDigits (n + 1) d.value := by
  rcases few.eq_or_lt with power | less
  · refine ⟨⟨1, (n + 1 : ℕ) + d.exponent⟩, Nat.one_lt_pow (by omega) (by norm_num), ?_⟩
    rw [value, value, power, zpow_add₀ (by norm_num), zpow_natCast]
    push_cast
    ring
  · exact ⟨d, less, rfl⟩

theorem shortest_of_isSome (few : n < 17) (found : (onGrid tie x m q (scale m q - 1 - n)).isSome) :
    ∃ j ≤ n, ∃ d, onGrid tie x m q (scale m q - 1 - j) = some d ∧
      shortest tie x m q = d.normal := by
  have first : ((List.range (n + 1)).findSome? fun j : ℕ =>
      onGrid tie x m q (scale m q - 1 - j)).isSome := by
    rw [List.findSome?_isSome_iff]
    exact ⟨n, List.mem_range.mpr n.lt_succ_self, found⟩
  obtain ⟨d, grid⟩ := Option.isSome_iff_exists.mp first
  obtain ⟨j, member, here⟩ := List.exists_of_findSome?_eq_some grid
  have front : List.range (n + 1) <+: List.range 17 := by
    obtain ⟨k, all⟩ := Nat.exists_eq_add_of_lt few
    rw [all, add_right_comm, List.range_add (n := n + 1)]
    exact List.prefix_append _ _
  refine ⟨j, Nat.le_of_lt_succ (List.mem_range.mp member), d, here, ?_⟩
  rw [shortest, List.IsPrefix.findSome?_eq_some front grid, Option.getD_some]

theorem hasDigits_of_onGrid (below : (m : ℚ) * 2 ^ q < 10 ^ scale m q)
    (found : onGrid tie x m q (scale m q - 1 - n) = some d) : HasDigits (n + 1) d.value := by
  apply hasDigits_of_le
  have few : units m q (scale m q - 1 - n) < 10 ^ (n + 1) := by
    have power : (10 : ℚ) ^ scale m q = 10 ^ (n + 1) * 10 ^ (scale m q - 1 - n) := by
      rw [← zpow_natCast, ← zpow_add₀ (by norm_num)]
      congr 1
      push_cast
      ring
    rw [units_eq_floor, Nat.floor_lt (by positivity), div_lt_iff₀ (by positivity)]
    exact_mod_cast power ▸ below
  exact (digits_of_onGrid found).trans few

theorem hasDigits_shortest (below : (m : ℚ) * 2 ^ q < 10 ^ scale m q) (few : n < 17)
    (found : (onGrid tie x m q (scale m q - 1 - n)).isSome) :
    HasDigits (n + 1) (shortest tie x m q).value := by
  obtain ⟨j, less, d, grid, same⟩ := shortest_of_isSome few found
  rw [same, value_normal]
  exact (hasDigits_of_onGrid below grid).mono (Nat.succ_le_succ less)

end Digits

section Fewest

variable {tie : Tie} {x : Float} {m n : ℕ} {q : ℤ} {positive : 0 < m} {d : Decimal}

theorem toFloat_of_close (unpacked : x.toModel.unpack = .finite .positive m q positive)
    (some : 0 < d.value) (full : 2 ^ 52 * 2 ^ q ≤ d.value ∨ q = -1074)
    (close : |d.value - m * 2 ^ q| < 2 ^ q / 2) :
    d.toFloat = x := by
  obtain ⟨few, least, fits, -⟩ := Double.digits_of_unpack unpacked
  have number := Double.exact_of_positive unpacked
  have power : (0 : ℚ) < 2 ^ q := by positivity
  have digits := Double.succ_units_le few q
  have top : (2 : ℚ) ^ q ≤ 2 ^ (971 : ℤ) := zpow_le_zpow_right₀ (by norm_num) (by omega)
  rw [toFloat_eq_iff (Double.isFinite_of_unpack unpacked) (by rw [number]; positivity), number]
  constructor
  · rw [Double.two_zpow_971] at top
    rw [Double.limit_eq]
    generalize (2 : ℚ) ^ 970 = unit at top ⊢
    linarith [(abs_lt.mp close).2]
  · rw [Double.rounded_of_nonneg some.le]
    exact Double.roundedMagnitude_of_close some few least full close

/-- With seventeen digits a neighbour of the double is less than half a unit off it. -/
theorem isSome_seventeen (unpacked : x.toModel.unpack = .finite .positive m q positive) :
    (onGrid tie x m q (scale m q - 1 - (16 : ℕ))).isSome := by
  obtain ⟨few, least, fits, full⟩ := Double.digits_of_unpack unpacked
  obtain ⟨-, scaled⟩ := scale_spec positive few least (by omega)
  have power : (0 : ℚ) < 2 ^ q := by positivity
  have digits := Double.succ_units_le few q
  have fine : (10 : ℚ) ^ 16 * 10 ^ (scale m q - 1 - (16 : ℕ)) ≤ m * 2 ^ q := by
    rw [← zpow_natCast, ← zpow_add₀ (by norm_num)]
    convert scaled using 2
    ring
  generalize scale m q - 1 - (16 : ℕ) = e at fine
  have grid : (0 : ℚ) < 10 ^ e := by positivity
  have low := units_le m q e
  have high := lt_units_add_one m q e
  have apart : ((units m q e + 1 : ℕ) : ℚ) * 10 ^ e = units m q e * 10 ^ e + 10 ^ e := by
    push_cast
    ring
  rw [isSome_onGrid_iff]
  rcases lt_or_ge (((units m q e + 1 : ℕ) : ℚ) * 10 ^ e - m * 2 ^ q) (2 ^ q / 2) with near | far
  · right
    apply toFloat_of_close unpacked
    · exact lt_of_le_of_lt (by positivity) high
    · apply full.imp_left
      intro all
      exact (Double.full_units_le all q).trans high.le
    · rw [value, abs_of_pos (sub_pos.mpr high)]
      exact near
  · left
    apply toFloat_of_close unpacked
    · rw [value]
      linarith
    · apply full.imp_left
      intro all
      -- the least number of a unit is so small that the grid has a neighbour above it
      have more : 2 ^ 52 < m := by
        apply all.lt_of_ne
        intro same
        have least : (m : ℚ) * 2 ^ q = 2 ^ 52 * 2 ^ q := by
          rw [← same]
          norm_num
        linarith
      have whole : ((2 : ℚ) ^ 52 + 1) * 2 ^ q ≤ m * 2 ^ q :=
        mul_le_mul_of_nonneg_right (by exact_mod_cast more) power.le
      rw [value]
      linarith
    · rw [value, abs_sub_comm, abs_of_nonneg (sub_nonneg.mpr low)]
      linarith

/-- No decimal that is read as a double has fewer digits than the shortest. -/
theorem shortest_fewest (unpacked : x.toModel.unpack = .finite .positive m q positive)
    (read : d.toFloat = x)
    (few : HasDigits n d.value) : HasDigits n (shortest tie x m q).value := by
  obtain ⟨digits, least, fits, -⟩ := Double.digits_of_unpack unpacked
  obtain ⟨below, scaled⟩ := scale_spec positive digits least (by omega)
  have finite := Double.isFinite_of_unpack unpacked
  have number := Double.exact_of_positive unpacked
  have some : Double.exact x ≠ 0 := by
    rw [number]
    positivity
  obtain ⟨c, few, same⟩ := few
  have read : c.toFloat = x := by
    rw [toFloat_eq_ofMagnitude, same, ← toFloat_eq_ofMagnitude, read]
  rcases le_or_gt 17 n with many | less
  · exact (hasDigits_shortest below (by norm_num) (isSome_seventeen unpacked)).mono many
  obtain ⟨k, rfl⟩ : ∃ k, n = k + 1 := by
    apply Nat.exists_eq_succ_of_ne_zero
    rintro rfl
    have none : c.value = 0 := by rw [value, Nat.lt_one_iff.mp few, Nat.cast_zero, zero_mul]
    have zero := ((toFloat_eq_iff finite some).mp read).2
    rw [none, Double.rounded_zero] at zero
    exact some zero.symm
  apply hasDigits_shortest below (by omega)
  rcases le_or_gt (scale m q - 1 - k) c.exponent with fine | coarse
  · exact isSome_onGrid finite number some read fine
  · -- it is below the power of ten that is the first of the grid
    have small : c.value ≤ 10 ^ (scale m q - 1) := value_le_power few.le (by push_cast; omega)
    have one : (⟨1, scale m q - 1⟩ : Decimal).toFloat = x := by
      apply toFloat_between finite some read
      left
      rw [number, value_power]
      exact ⟨small, scaled⟩
    apply isSome_onGrid finite number some one
    simp only
    omega

end Fewest

end TouchGesture.Decimal
