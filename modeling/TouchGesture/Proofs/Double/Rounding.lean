import Mathlib

/-! How exact results are rounded to doubles. Digits that are shifted out stay behind the mantissa
as the fraction they make of its last unit, and the fraction decides which mantissa is nearest. -/

namespace TouchGesture.Double

open Float.Model Float.Model.UnpackedFloat

def withFraction (m num den : Nat) : ExtendedMantissa :=
  .ofMantissaAndAccuracy m (accuracyOfFraction num den)

theorem withFraction_eq (m num den : Nat) :
    withFraction m num den =
      ⟨m, decide (num ≠ 0 ∧ den ≤ 2 * num), decide (num ≠ 0 ∧ 2 * num ≠ den)⟩ := by
  by_cases none : num = 0
  · simp [withFraction, accuracyOfFraction, ExtendedMantissa.ofMantissaAndAccuracy, none]
  · rw [withFraction, accuracyOfFraction, if_neg none]
    rcases Nat.lt_trichotomy (2 * num) den with below | half | above
    · simp [Nat.compare_eq_lt.mpr below, ExtendedMantissa.ofMantissaAndAccuracy, none, below,
        Nat.ne_of_lt below]
    · simp [ExtendedMantissa.ofMantissaAndAccuracy, none, half]
    · simp [Nat.compare_eq_gt.mpr above, ExtendedMantissa.ofMantissaAndAccuracy, none,
        Nat.le_of_lt above, Nat.ne_of_gt above]

theorem shiftRightOne_withFraction {m num den : Nat} (proper : num < den) :
    (withFraction m num den).shiftRightOne =
      withFraction (m / 2) (m % 2 * den + num) (2 * den) := by
  rw [withFraction_eq, withFraction_eq, ExtendedMantissa.shiftRightOne, ExtendedMantissa.mk.injEq]
  have parity : m % 2 = 0 ∨ m % 2 = 1 := by omega
  refine ⟨rfl, ?_, ?_⟩
  · rw [Bool.eq_iff_iff, bne_iff_ne, decide_eq_true_iff]
    rcases parity with bit | bit <;> rw [bit] <;> omega
  · rw [Bool.eq_iff_iff, Bool.or_eq_true, decide_eq_true_iff, decide_eq_true_iff,
      decide_eq_true_iff]
    rcases parity with bit | bit <;> rw [bit] <;> omega

theorem fraction_proper {m num den : Nat} (proper : num < den) (k : Nat) :
    m % 2 ^ k * den + num < den * 2 ^ k := by
  have room : (m % 2 ^ k + 1) * den ≤ 2 ^ k * den :=
    Nat.mul_le_mul_right den (Nat.mod_lt m (Nat.two_pow_pos k))
  rw [Nat.add_mul, Nat.one_mul, Nat.mul_comm (2 ^ k)] at room
  omega

theorem shiftRight_withFraction {m num den : Nat} (proper : num < den) (k : Nat) :
    withFraction m num den >>> k =
      withFraction (m / 2 ^ k) (m % 2 ^ k * den + num) (den * 2 ^ k) := by
  induction k with
  | zero =>
      simp only [Nat.pow_zero, Nat.div_one, Nat.mod_one, Nat.zero_mul, Nat.zero_add, Nat.mul_one]
      rfl
  | succ k ih =>
      have digits : m % 2 ^ (k + 1) * den = m / 2 ^ k % 2 * (den * 2 ^ k) + m % 2 ^ k * den := by
        rw [Nat.mod_pow_succ]
        ring
      calc withFraction m num den >>> (k + 1)
          = (withFraction m num den >>> k).shiftRightOne := rfl
        _ = withFraction (m / 2 ^ k / 2)
              (m / 2 ^ k % 2 * (den * 2 ^ k) + (m % 2 ^ k * den + num)) (2 * (den * 2 ^ k)) := by
            rw [ih, shiftRightOne_withFraction (fraction_proper proper k)]
        _ = withFraction (m / 2 ^ (k + 1)) (m % 2 ^ (k + 1) * den + num) (den * 2 ^ (k + 1)) := by
            rw [Nat.div_div_eq_div_mul, ← Nat.pow_succ, digits, Nat.add_assoc]
            congr 1
            ring

theorem roundedMantissa_withFraction (m num den : Nat) :
    (withFraction m num den).roundedMantissa =
      if num = 0 ∨ 2 * num < den then m else if 2 * num = den then m + m % 2 else m + 1 := by
  rw [withFraction_eq]
  by_cases none : num = 0
  · simp [ExtendedMantissa.roundedMantissa, ExtendedMantissa.accuracy, Accuracy.roundToNearestEven,
      none]
  · rcases Nat.lt_trichotomy (2 * num) den with below | half | above
    · simp [ExtendedMantissa.roundedMantissa, ExtendedMantissa.accuracy,
        Accuracy.roundToNearestEven, none, below, Nat.not_le_of_gt below, Nat.ne_of_lt below]
    · simp [ExtendedMantissa.roundedMantissa, ExtendedMantissa.accuracy,
        Accuracy.roundToNearestEven, none, half]
    · simp [ExtendedMantissa.roundedMantissa, ExtendedMantissa.accuracy,
        Accuracy.roundToNearestEven, none, Nat.le_of_lt above, Nat.not_lt_of_gt above,
        Nat.ne_of_gt above]

/-- An even mantissa is reached from half a unit below it. -/
theorem even_le_rounded_iff {m num den n : Nat} (proper : num < den) (even : n % 2 = 0) :
    n ≤ (withFraction m num den).roundedMantissa ↔
      2 * n * den ≤ 2 * (m * den + num) + den := by
  have units : 2 * (m * den + num) + den = 2 * m * den + (2 * num + den) := by ring
  rw [roundedMantissa_withFraction, units]
  rcases Nat.lt_trichotomy n (m + 1) with under | rfl | beyond
  · have reached : 2 * n * den ≤ 2 * m * den := Nat.mul_le_mul_right den (by omega)
    split_ifs <;> omega
  · -- `m` is odd here, so that a tie goes up
    have next : 2 * (m + 1) * den = 2 * m * den + 2 * den := by ring
    rw [next]
    split_ifs <;> omega
  · have missed : (2 * m + 4) * den ≤ 2 * n * den := Nat.mul_le_mul_right den (by omega)
    rw [Nat.add_mul] at missed
    split_ifs <;> omega

theorem even_le_shifted_iff {m num den n : Nat} (proper : num < den) (even : n % 2 = 0) (k : Nat) :
    n ≤ (withFraction m num den >>> k).roundedMantissa ↔
      2 * n * (den * 2 ^ k) ≤ 2 * (m * den + num) + den * 2 ^ k := by
  have whole : m / 2 ^ k * (den * 2 ^ k) + (m % 2 ^ k * den + num) = m * den + num := by
    calc m / 2 ^ k * (den * 2 ^ k) + (m % 2 ^ k * den + num)
        = (2 ^ k * (m / 2 ^ k) + m % 2 ^ k) * den + num := by ring
      _ = m * den + num := by rw [Nat.div_add_mod]
  rw [shiftRight_withFraction proper, even_le_rounded_iff (fraction_proper proper k) even, whole]

theorem even_le_shifted_iff_value {m num den n : Nat} (proper : num < den) (even : n % 2 = 0)
    (k : Nat) (e : Int) :
    n ≤ (withFraction m num den >>> k).roundedMantissa ↔
      ((n : ℚ) - 1 / 2) * 2 ^ (e + k) ≤ (m + num / den) * 2 ^ e := by
  have unit : (0 : ℚ) < 2 ^ e := by positivity
  have parts : (0 : ℚ) < den := by exact_mod_cast Nat.zero_lt_of_lt proper
  have scaled : ((n : ℚ) - 1 / 2) * 2 ^ (e + k) = (n - 1 / 2) * 2 ^ k * 2 ^ e := by
    rw [zpow_add₀ (by norm_num), zpow_natCast]
    ring
  have fraction : (m : ℚ) + num / den = (m * den + num) / den := by field_simp
  rw [even_le_shifted_iff proper even, scaled, mul_le_mul_iff_left₀ unit, fraction,
    le_div_iff₀ parts, ← @Nat.cast_le ℚ]
  push_cast
  constructor <;> intro reached <;> linarith

/-- The exponent that leaves 53 digits to a number, or as many as the least exponent does. -/
def target (m : Nat) (e : Int) : Int := Format.binary64.targetExponent (totalExponent m e)

theorem target_eq (m : Nat) (e : Int) : target m e = max (m.log2 + 1 + e - 53) (-1074) := rfl

def nearest (m num den : Nat) (e : Int) : Nat :=
  (withFraction m num den >>> (target m e - e).toNat).roundedMantissa

theorem even_le_nearest_iff {m num den n : Nat} {e : Int} (proper : num < den) (even : n % 2 = 0)
    (low : e ≤ target m e) :
    n ≤ nearest m num den e ↔
      ((n : ℚ) - 1 / 2) * 2 ^ target m e ≤ (m + num / den) * 2 ^ e := by
  have landed : e + ((target m e - e).toNat : Int) = target m e := by omega
  rw [nearest, even_le_shifted_iff_value proper even _ e, landed]

private theorem rounded_le (m num den : Nat) :
    (withFraction m num den).roundedMantissa ≤ m + 1 := by
  rw [roundedMantissa_withFraction]
  split_ifs <;> omega

theorem nearest_le {m num den : Nat} {e : Int} (proper : num < den) :
    nearest m num den e ≤ 2 ^ 53 := by
  have digits : m.log2 < 53 + (target m e - e).toNat := by
    rw [target_eq]
    omega
  have bound : m < 2 ^ 53 * 2 ^ (target m e - e).toNat := by
    rw [← Nat.pow_add]
    by_cases none : m = 0
    · rw [none]
      exact Nat.two_pow_pos _
    · exact (Nat.log2_lt none).mp digits
  have quotient := (Nat.div_lt_iff_lt_mul (Nat.two_pow_pos (target m e - e).toNat)).mpr bound
  rw [nearest, shiftRight_withFraction proper]
  exact Nat.le_trans (rounded_le _ _ _) quotient

def carried (s : Sign) (r : Nat) (t : Int) : UnpackedFloat :=
  if filled : r = 0 then .zero s
  else if r < 2 ^ 53 then .finite s r t (Nat.pos_of_ne_zero filled)
  else .finite s (2 ^ 52) (t + 1) (by decide)

private theorem second_shift {r : Nat} {t : Int} (few : r ≤ 2 ^ 53) (least : -1074 ≤ t) :
    shiftToTargetExponent Format.binary64 r t .exact =
      if r < 2 ^ 53 then (withFraction r 0 1, t) else (withFraction (2 ^ 52) 0 1, t + 1) := by
  by_cases fits : r < 2 ^ 53
  · have digits : r.log2 < 53 := by
      by_cases none : r = 0
      · rw [none]
        decide
      · exact (Nat.log2_lt none).mpr fits
    have stays : (target r t - t).toNat = 0 := by
      rw [target_eq]
      omega
    rw [if_pos fits]
    change (withFraction r 0 1 >>> (target r t - t).toNat, t + ((target r t - t).toNat : Int)) = _
    rw [stays]
    exact Prod.ext rfl (Int.add_zero t)
  · obtain rfl : r = 2 ^ 53 := by omega
    have next : (target (2 ^ 53) t - t).toNat = 1 := by
      rw [target_eq, Nat.log2_two_pow]
      omega
    rw [if_neg fits]
    change (withFraction (2 ^ 53) 0 1 >>> (target (2 ^ 53) t - t).toNat,
      t + ((target (2 ^ 53) t - t).toNat : Int)) = _
    rw [next]
    rfl

/-- One shift to the target exponent and one choice of the nearest mantissa; the shift that follows
only carries. -/
theorem roundWithAccuracy_eq_carried {s : Sign} {m num den : Nat} {e : Int} (proper : num < den)
    (low : e ≤ target m e) :
    roundWithAccuracy Format.binary64 s m e (accuracyOfFraction num den) =
      carried s (nearest m num den e) (target m e) := by
  have few := nearest_le (m := m) (e := e) proper
  have least : -1074 ≤ target m e := by
    rw [target_eq]
    omega
  have landed : e + ((target m e - e).toNat : Int) = target m e := by omega
  have first : shiftToTargetExponent Format.binary64 m e (accuracyOfFraction num den) =
      (withFraction m num den >>> (target m e - e).toNat, target m e) := Prod.ext rfl landed
  rw [nearest] at few ⊢
  generalize (withFraction m num den >>> (target m e - e).toNat) = shifted at few first ⊢
  have second := second_shift few least
  by_cases fits : shifted.roundedMantissa < 2 ^ 53
  · rw [if_pos fits] at second
    simp only [roundWithAccuracy, first, second, withFraction_eq, carried, if_pos fits]
  · have filled : shifted.roundedMantissa ≠ 0 := by omega
    rw [if_neg fits] at second
    simp only [roundWithAccuracy, first, second, withFraction_eq, carried, dif_neg filled,
      if_neg fits]
    rfl

end TouchGesture.Double
