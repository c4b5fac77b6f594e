import TouchGesture.Proofs.Double.Packing

/-! What unpacked doubles stand for, and that every operation on finite ones gives the double that
is nearest to the exact result. -/

namespace TouchGesture.Double

open Float.Model Float.Model.UnpackedFloat

def value : UnpackedFloat → ℚ
  | .finite s m e _ => s.apply m * 2 ^ e
  | _ => 0

def factor : Sign → ℚ
  | .negative => -1
  | .positive => 1

theorem cast_apply (s : Sign) (m : ℕ) : ((s.apply m : ℤ) : ℚ) = factor s * m := by
  cases s <;> simp [factor, Sign.apply]

@[simp] theorem abs_factor (s : Sign) : |factor s| = 1 := by
  cases s <;> simp [factor]

theorem factor_injective : Function.Injective factor := by
  intro s s' same
  cases s <;> cases s' <;> first | rfl | norm_num [factor] at same

theorem factor_mul (s s' : Sign) : factor (s * s') = factor s * factor s' := by
  cases s <;> cases s' <;> decide +kernel

theorem factor_div (s s' : Sign) : factor (s / s') = factor s / factor s' := by
  cases s <;> cases s' <;> decide +kernel

theorem value_finite (s : Sign) {m : ℕ} (e : ℤ) (positive : 0 < m) :
    value (.finite s m e positive) = factor s * (m * 2 ^ e) := by
  rw [value, cast_apply, mul_assoc]

theorem value_carried {s : Sign} {r : ℕ} {t : ℤ} (few : r ≤ 2 ^ 53) :
    value (carried s r t) = factor s * (r * 2 ^ t) := by
  rw [carried]
  split_ifs with none below
  · simp [value, none]
  · exact value_finite s t _
  · obtain rfl : r = 2 ^ 53 := by omega
    rw [value_finite, zpow_add₀ (by norm_num), zpow_one]
    push_cast
    ring

section Magnitudes

variable {v : ℚ}

theorem exists_fraction (nonneg : 0 ≤ v) (e : ℤ) :
    ∃ m num den : ℕ, num < den ∧ v = (m + num / den) * 2 ^ e := by
  have units : 0 ≤ v / 2 ^ e := by positivity
  have low := Nat.floor_le units
  have high := Nat.lt_floor_add_one (v / 2 ^ e)
  generalize rest : v / 2 ^ e - ⌊v / 2 ^ e⌋₊ = f
  have few := Rat.num_lt_denom_iff.mpr (show f < 1 by linarith)
  have num : ((f.num.toNat : ℤ) : ℚ) = f.num :=
    congrArg _ (Int.toNat_of_nonneg (Rat.num_nonneg.mpr (show 0 ≤ f by linarith)))
  have fraction : (f.num.toNat : ℚ) / f.den = f := by
    rw [← Int.cast_natCast, num, Rat.num_div_den]
  refine ⟨⌊v / 2 ^ e⌋₊, f.num.toNat, f.den, by have := f.den_pos; omega, ?_⟩
  rw [fraction, ← rest, add_sub_cancel, div_mul_cancel₀ _ (by positivity)]

theorem fits_nearestDouble_iff (s : Sign) (nonneg : 0 ≤ v) :
    Fits (nearestDouble s v) ↔ v < limit := by
  obtain ⟨m, num, den, proper, rfl⟩ := exists_fraction nonneg (-1074)
  have low : (-1074 : ℤ) ≤ target m (-1074) := by
    rw [target_eq]
    exact le_max_right _ _
  rw [← roundWithAccuracy_eq_nearestDouble proper low]
  exact fits_roundWithAccuracy_iff proper low

theorem rounded_factor_mul (s : Sign) (nonneg : 0 ≤ v) :
    rounded (factor s * v) = factor s * roundedMagnitude v := by
  cases s with
  | negative => rw [factor, neg_one_mul, neg_one_mul, rounded_neg, rounded_of_nonneg nonneg]
  | positive => rw [factor, one_mul, one_mul, rounded_of_nonneg nonneg]

theorem value_nearestDouble (s : Sign) (nonneg : 0 ≤ v) :
    value (nearestDouble s v) = rounded (factor s * v) := by
  rw [rounded_factor_mul s nonneg, nearestDouble, value_carried (roundEven_units_le v),
    roundedMagnitude]

end Magnitudes

/-- The double that a number is rounded to. A zero may have either sign. -/
def IsNearest (u : UnpackedFloat) (v : ℚ) : Prop :=
  ∃ s, v = factor s * |v| ∧ u = nearestDouble s |v|

section Nearest

variable {u w : UnpackedFloat} {v : ℚ}

theorem isNearest_nearestDouble (s : Sign) (nonneg : 0 ≤ v) :
    IsNearest (nearestDouble s v) (factor s * v) := by
  have size : |factor s * v| = v := by rw [abs_mul, abs_factor, one_mul, abs_of_nonneg nonneg]
  exact ⟨s, by rw [size], by rw [size]⟩

theorem isNearest_zero (s : Sign) : IsNearest (.zero s) 0 := by
  have none : roundEven 0 = 0 := by exact_mod_cast roundEven_natCast 0
  exact ⟨s, by simp, by simp [nearestDouble, none, carried]⟩

namespace IsNearest

theorem canonical (nearest : IsNearest u v) : Canonical u := by
  obtain ⟨s, -, rfl⟩ := nearest
  exact canonical_nearestDouble s (abs_nonneg v)

theorem fits_iff (nearest : IsNearest u v) : Fits u ↔ |v| < limit := by
  obtain ⟨s, -, rfl⟩ := nearest
  exact fits_nearestDouble_iff s (abs_nonneg v)

theorem value_eq (nearest : IsNearest u v) : value u = rounded v := by
  obtain ⟨s, sign, rfl⟩ := nearest
  rw [value_nearestDouble s (abs_nonneg v), ← sign]

/-- Only a zero comes with two signs. -/
theorem unique (left : IsNearest u v) (right : IsNearest w v) (some : v ≠ 0) : u = w := by
  obtain ⟨s, sign, rfl⟩ := left
  obtain ⟨s', sign', rfl⟩ := right
  have size : 0 < |v| := abs_pos.mpr some
  have same : s = s' :=
    factor_injective (mul_right_cancel₀ size.ne' (sign.symm.trans sign'))
  rw [same]

end IsNearest

theorem unit_canonical {m : ℕ} {e : ℤ} (positive : 0 < m) (few : m < 2 ^ 53)
    (least : -1074 ≤ e)
    (full : 2 ^ 52 ≤ m ∨ e = -1074) : unit (m * 2 ^ e) = e := by
  apply unit_eq (by positivity) least
  · exact mul_lt_mul_of_pos_right (by exact_mod_cast few) (by positivity)
  · apply full.imp_left
    intro digits
    exact full_units_le digits e

theorem isNearest_self (canonical : Canonical u) (finite : u.isFinite) : IsNearest u (value u) := by
  cases u with
  | notANumber | infinity s => cases finite
  | zero s => exact isNearest_zero s
  | finite s m e positive =>
      obtain ⟨few, least, full⟩ := canonical
      have kept : (m : ℚ) * 2 ^ e / 2 ^ e = m := mul_div_cancel_right₀ _ (by positivity)
      have self : nearestDouble s (m * 2 ^ e) = .finite s m e positive := by
        rw [nearestDouble, unit_canonical positive few least full, kept, roundEven_natCast, carried,
          dif_neg positive.ne', if_pos few]
      have nearest := isNearest_nearestDouble s (v := m * 2 ^ e) (by positivity)
      rwa [self, ← value_finite s e positive] at nearest

theorem isNearest_round {s : Sign} {m : ℕ} {e : ℤ} (filled : m ≠ 0) :
    IsNearest (UnpackedFloat.round Format.binary64 s m e) (factor s * (m * 2 ^ e)) := by
  rw [round_eq_nearestDouble filled]
  exact isNearest_nearestDouble s (by positivity)

theorem isNearest_normalize (n : ℤ) (e : ℤ) (z : Sign) :
    IsNearest (UnpackedFloat.normalize Format.binary64 n e z) (n * 2 ^ e) := by
  rcases Int.lt_trichotomy n 0 with negative | rfl | positive
  · have order : compare n 0 = .lt := compare_lt_iff_lt.mpr negative
    have size : (n : ℚ) = factor .negative * ((-n).toNat : ℕ) := by
      rw [← cast_apply]
      exact congrArg _ (show n = -((-n).toNat : ℤ) by omega)
    rw [UnpackedFloat.normalize, order, size, mul_assoc]
    exact isNearest_round (by omega)
  · rw [Int.cast_zero, zero_mul]
    exact isNearest_zero z
  · have order : compare n 0 = .gt := compare_gt_iff_gt.mpr positive
    have size : (n : ℚ) = factor .positive * (n.toNat : ℕ) := by
      rw [← cast_apply]
      exact congrArg _ (show n = (n.toNat : ℤ) by omega)
    rw [UnpackedFloat.normalize, order, size, mul_assoc]
    exact isNearest_round (by omega)

theorem value_aligned (s : Sign) (m : ℕ) {e t : ℤ} (low : t ≤ e) :
    (s.apply ((decreaseExponent m e t).1 : ℤ) : ℚ) * 2 ^ t = s.apply (m : ℤ) * 2 ^ e := by
  have kept := decreaseExponent_value m e t
  rw [decreaseExponent_snd, min_eq_right low] at kept
  rw [cast_apply, cast_apply, mul_assoc, mul_assoc, kept]

theorem isNearest_add {u w : UnpackedFloat} (left : Canonical u) (right : Canonical w)
    (finite : u.isFinite) (finite' : w.isFinite) :
    IsNearest (UnpackedFloat.add Format.binary64 u w) (value u + value w) := by
  cases u with
  | notANumber | infinity s => cases finite
  | zero s =>
      cases w with
      | notANumber | infinity s' => cases finite'
      | zero s' =>
          have sum : value (.zero s) + value (.zero s') = 0 := add_zero 0
          rw [sum, UnpackedFloat.add]
          split_ifs <;> exact isNearest_zero _
      | finite s' m' e' positive' =>
          have sum : value (.zero s) + value (.finite s' m' e' positive') =
              value (.finite s' m' e' positive') :=
            zero_add _
          rw [sum]
          exact isNearest_self right finite'
  | finite s m e positive =>
      cases w with
      | notANumber | infinity s' => cases finite'
      | zero s' =>
          have sum : value (.finite s m e positive) + value (.zero s') =
              value (.finite s m e positive) :=
            add_zero _
          rw [sum]
          exact isNearest_self left finite
      | finite s' m' e' positive' =>
          have sum := isNearest_normalize
            (s.apply (decreaseExponent m e (min e e')).1 + s'.apply
              (decreaseExponent m' e' (min e e')).1)
            (min e e') .positive
          rw [Int.cast_add, add_mul, value_aligned s m (min_le_left e e'),
            value_aligned s' m' (min_le_right e e')] at sum
          exact sum

theorem sub_eq_add (u w : UnpackedFloat) :
    UnpackedFloat.sub Format.binary64 u w = UnpackedFloat.add Format.binary64 u w.neg := by
  cases u with
  | notANumber => rfl
  | infinity s | zero s => cases w <;> rfl
  | finite s m e positive =>
      cases w with
      | notANumber | infinity s' | zero s' => rfl
      | finite s' m' e' positive' =>
          have opposite (n : ℤ) : (-s').apply n = -s'.apply n := by
            cases s' with
            | negative => exact (neg_neg n).symm
            | positive => rfl
          simp only [UnpackedFloat.sub, UnpackedFloat.add, UnpackedFloat.neg, opposite,
            Int.sub_eq_add_neg]

theorem value_neg (u : UnpackedFloat) : value u.neg = -value u := by
  cases u with
  | notANumber | infinity s | zero s => exact neg_zero.symm
  | finite s m e positive =>
      rw [UnpackedFloat.neg, value_finite, value_finite, ← neg_mul]
      cases s <;> rfl

theorem canonical_neg {u : UnpackedFloat} (canonical : Canonical u) : Canonical u.neg := by
  cases u <;> exact canonical

theorem isFinite_neg (u : UnpackedFloat) : u.neg.isFinite = u.isFinite := by
  cases u <;> rfl

theorem isNearest_sub {u w : UnpackedFloat} (left : Canonical u) (right : Canonical w)
    (finite : u.isFinite) (finite' : w.isFinite) :
    IsNearest (UnpackedFloat.sub Format.binary64 u w) (value u - value w) := by
  rw [sub_eq_add, sub_eq_add_neg, ← value_neg]
  exact isNearest_add left (canonical_neg right) finite (isFinite_neg w ▸ finite')

/-- A product of canonical numbers has digits enough. -/
theorem le_target_mul {m m' : ℕ} {e e' : ℤ} (positive : 0 < m) (positive' : 0 < m')
    (full : 2 ^ 52 ≤ m ∨ e = -1074) (full' : 2 ^ 52 ≤ m' ∨ e' = -1074) :
    e + e' ≤ target (m * m') (e + e') := by
  have filled : m * m' ≠ 0 := by positivity
  rw [target_eq]
  rcases full with full | rfl
  · have digits := (Nat.le_log2 filled).mpr (full.trans (Nat.le_mul_of_pos_right m positive'))
    omega
  · rcases full' with full' | rfl
    · have digits := (Nat.le_log2 filled).mpr (full'.trans (Nat.le_mul_of_pos_left m' positive))
      omega
    · omega

theorem isNearest_mul_finite (s s' : Sign) {m m' : ℕ} {e e' : ℤ} (positive : 0 < m)
    (positive' : 0 < m') (low : e + e' ≤ target (m * m') (e + e')) :
    IsNearest
      (UnpackedFloat.mul Format.binary64 (.finite s m e positive) (.finite s' m' e' positive'))
      (value (.finite s m e positive) * value (.finite s' m' e' positive')) := by
  have digits : (((m * m' : ℕ) : ℚ) + (0 : ℕ) / (1 : ℕ)) * 2 ^ (e + e') =
      m * 2 ^ e * (m' * 2 ^ e') := by
    rw [zpow_add₀ (by norm_num)]
    push_cast
    ring
  have nearest := isNearest_nearestDouble (s * s') (v := m * 2 ^ e * (m' * 2 ^ e')) (by positivity)
  rw [factor_mul, ← digits, ← roundWithAccuracy_eq_nearestDouble Nat.zero_lt_one low,
    digits] at nearest
  rw [value_finite, value_finite, mul_mul_mul_comm]
  exact nearest

theorem isNearest_mul {u w : UnpackedFloat} (left : Canonical u) (right : Canonical w)
    (finite : u.isFinite) (finite' : w.isFinite) :
    IsNearest (UnpackedFloat.mul Format.binary64 u w) (value u * value w) := by
  cases u with
  | notANumber | infinity s => cases finite
  | zero s =>
      have product : value (.zero s) * value w = 0 := zero_mul _
      rw [product]
      cases w with
      | notANumber | infinity s' => cases finite'
      | zero s' | finite s' m' e' positive' => exact isNearest_zero (s * s')
  | finite s m e positive =>
      cases w with
      | notANumber | infinity s' => cases finite'
      | zero s' =>
          have product : value (.finite s m e positive) * value (.zero s') = 0 := mul_zero _
          rw [product]
          exact isNearest_zero (s * s')
      | finite s' m' e' positive' =>
          exact isNearest_mul_finite s s' positive positive'
            (le_target_mul positive positive' left.2.2 right.2.2)

theorem divCore_low {m m' : ℕ} (e e' : ℤ) (positive : 0 < m) (positive' : 0 < m') :
    (divCore Format.binary64 m e m' e').2.1 ≤
      target (divCore Format.binary64 m e m' e').1 (divCore Format.binary64 m e m' e').2.1 := by
  have exponent : (divCore Format.binary64 m e m' e').2.1 =
      min (e - e') (max ((m.log2 : ℤ) + 1 + e - (m'.log2 + 1 + e') - 53) (-1074)) := rfl
  have quotient : (divCore Format.binary64 m e m' e').1 =
      m <<< (e - e' - (divCore Format.binary64 m e m' e').2.1).toNat / m' := rfl
  generalize (divCore Format.binary64 m e m' e').2.1 = t at exponent quotient ⊢
  by_cases small : t ≤ -1074
  · rw [target_eq]
    omega
  · generalize shift : (e - e' - t).toNat = k at quotient
    have room : m'.log2 + 53 ≤ m.log2 + k := by omega
    have full : 2 ^ 52 ≤ m <<< k / m' := by
      rw [Nat.le_div_iff_mul_le positive', Nat.shiftLeft_eq]
      calc 2 ^ 52 * m' ≤ 2 ^ 52 * 2 ^ (m'.log2 + 1) := Nat.mul_le_mul_left _ Nat.lt_log2_self.le
        _ = 2 ^ (m'.log2 + 53) := by rw [← Nat.pow_add]; congr 1; omega
        _ ≤ 2 ^ (m.log2 + k) := Nat.pow_le_pow_right (by decide) room
        _ = 2 ^ m.log2 * 2 ^ k := Nat.pow_add ..
        _ ≤ m * 2 ^ k := Nat.mul_le_mul_right _ (Nat.log2_self_le positive.ne')
    have digits := (Nat.le_log2 (by omega)).mpr full
    rw [quotient, target_eq]
    omega

theorem divCore_value {m m' : ℕ} (e e' : ℤ) (positive' : 0 < m') :
    (((divCore Format.binary64 m e m' e').1 : ℚ) +
        (m <<< (e - e' - (divCore Format.binary64 m e m' e').2.1).toNat % m' : ℕ) / m') *
      2 ^ (divCore Format.binary64 m e m' e').2.1 = m * 2 ^ e / (m' * 2 ^ e') := by
  have below : (divCore Format.binary64 m e m' e').2.1 ≤ e - e' := min_le_left _ _
  have quotient : (divCore Format.binary64 m e m' e').1 =
      m <<< (e - e' - (divCore Format.binary64 m e m' e').2.1).toNat / m' := rfl
  generalize (divCore Format.binary64 m e m' e').2.1 = t at below quotient ⊢
  generalize shift : (e - e' - t).toNat = k at quotient ⊢
  have landed : e = t + k + e' := by omega
  have whole : (m' : ℚ) * (m <<< k / m' : ℕ) + (m <<< k % m' : ℕ) = m * 2 ^ k := by
    have digits := Nat.div_add_mod (m <<< k) m'
    rw [Nat.shiftLeft_eq] at digits ⊢
    exact_mod_cast digits
  have parts : (m' : ℚ) ≠ 0 := by exact_mod_cast positive'.ne'
  have powers : (2 : ℚ) ^ e = 2 ^ t * 2 ^ k * 2 ^ e' := by
    rw [landed, zpow_add₀ (by norm_num), zpow_add₀ (by norm_num), zpow_natCast]
  rw [quotient, powers]
  field_simp
  linear_combination whole

theorem isNearest_div {u w : UnpackedFloat} (finite : u.isFinite) (finite' : w.isFinite)
    (some : value w ≠ 0) :
    IsNearest (UnpackedFloat.div Format.binary64 u w) (value u / value w) := by
  cases w with
  | notANumber | infinity s' => cases finite'
  | zero s' => exact absurd rfl some
  | finite s' m' e' positive' =>
      cases u with
      | notANumber | infinity s => cases finite
      | zero s =>
          have quotient : value (.zero s) / value (.finite s' m' e' positive') = 0 := zero_div _
          rw [quotient]
          exact isNearest_zero (s / s')
      | finite s m e positive =>
          have nearest := isNearest_nearestDouble (s / s')
            (v := m * 2 ^ e / (m' * 2 ^ e')) (by positivity)
          rw [factor_div, ← divCore_value e e' positive',
            ← roundWithAccuracy_eq_nearestDouble (Nat.mod_lt _ positive')
              (divCore_low e e' positive positive'),
            divCore_value e e' positive'] at nearest
          rw [value_finite, value_finite, mul_div_mul_comm]
          exact nearest

theorem isNearest_ofScientific {m : ℕ} {e : ℤ} (above : -(2 ^ 11 + m.log2 : ℤ) ≤ e)
    (below : e ≤ 2 ^ 11) :
    IsNearest (UnpackedFloat.ofScientific Format.binary64 m e) (m * 10 ^ e) := by
  by_cases none : m = 0
  · rw [UnpackedFloat.ofScientific, dif_pos none, none, Nat.cast_zero, zero_mul]
    exact isNearest_zero _
  have positive : 0 < m := Nat.pos_of_ne_zero none
  have tens (k : ℕ) : 0 < 10 ^ k := by positivity
  have power (k : ℕ) : value (.finite .positive (10 ^ k) 0 (tens k)) = 10 ^ (k : ℤ) := by
    simp [value_finite, factor]
  have near : ¬ e > 2 ^ Format.binary64.exponentBits := not_lt.mpr below
  have far : ¬ e < -(2 ^ Format.binary64.exponentBits + m.log2) := not_lt.mpr above
  rw [UnpackedFloat.ofScientific, dif_neg none, if_neg near, if_neg far]
  by_cases natural : 0 ≤ e
  · have exponent : (e.toNat : ℤ) = e := Int.toNat_of_nonneg natural
    -- the digits are moved left until a product with them is precise enough
    have moved : 0 < m <<< 53 := by
      rw [Nat.shiftLeft_eq]
      positivity
    have same : value (.finite .positive (m <<< 53) (-53) moved) = m := by
      rw [value_finite, Nat.shiftLeft_eq, factor]
      push_cast
      rw [one_mul, mul_assoc, zpow_neg]
      norm_num
    have full : 2 ^ 53 ≤ m <<< 53 * 10 ^ e.toNat := by
      rw [Nat.shiftLeft_eq, mul_comm m, mul_assoc]
      exact Nat.le_mul_of_pos_right _ (Nat.mul_pos positive (tens _))
    have digits := (Nat.le_log2 (Nat.mul_pos moved (tens _)).ne').mpr full
    have low : (-53 + 0 : ℤ) ≤ target (m <<< 53 * 10 ^ e.toNat) (-53 + 0) := by
      rw [target_eq]
      omega
    have product := isNearest_mul_finite .positive .positive moved (tens _) low
    rw [power, same, exponent] at product
    rw [if_pos natural]
    exact product
  · have exponent : ((-e).toNat : ℤ) = -e := by omega
    have same : value (.finite .positive m 0 positive) = m := by simp [value_finite, factor]
    have quotient := isNearest_div (u := .finite .positive m 0 positive)
      (w := .finite .positive (10 ^ (-e).toNat) 0 (tens _)) rfl rfl (by rw [power]; positivity)
    rw [power, exponent, same, div_eq_mul_inv, ← zpow_neg, neg_neg] at quotient
    rw [if_neg natural]
    exact quotient

end Nearest

end TouchGesture.Double
