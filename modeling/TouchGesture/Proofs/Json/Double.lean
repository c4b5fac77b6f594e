import TouchGesture.Proofs.Decimal.Nearest
import TouchGesture.Proofs.Json.Decimal

/-! Doubles in JSON: how a finite one is written, that it is read as some double, and which are read
as what they are. -/

namespace TouchGesture.Json

open Double (Nearest)

def reread? (x : Float) : Option Float :=
  (Numeral.ofFloat? x).bind fun n => n.amount?.map Amount.toFloat

theorem scaled?_short {d : Decimal} (short : d.Short) (some : d.digits ≠ 0) :
    ∃ y, Numeral.scaled? d.digits d.exponent = .some y ∧ Nearest y d.value := by
  obtain ⟨few, small⟩ := short
  have finite := Decimal.isFinite_power (k := d.exponent.natAbs) (by omega)
  have power := Decimal.exact_power (k := d.exponent.natAbs) small
  by_cases natural : 0 ≤ d.exponent
  · have exponent : (d.exponent.natAbs : ℤ) = d.exponent := by omega
    have nearest := Decimal.nearest_product few finite power
    rw [exponent] at nearest finite
    have reached :
        ((UInt64.ofNat d.digits).toFloat * Decimal.toFloat ⟨1, d.exponent⟩).isFinite := by
      have whole : (d.digits : ℚ) * 10 ^ d.exponent =
          (d.digits * 10 ^ d.exponent.natAbs : ℕ) := by
        have powers : (10 : ℚ) ^ d.exponent = 10 ^ d.exponent.natAbs := by
          rw [← zpow_natCast, exponent]
        rw [powers, Nat.cast_mul, Nat.cast_pow, Nat.cast_ofNat]
      have bound : d.digits * 10 ^ d.exponent.natAbs < 2 ^ 53 * 2 ^ 74 := by
        have tens : 10 ^ d.exponent.natAbs ≤ 10 ^ 22 := Nat.pow_le_pow_right (by norm_num) small
        exact Nat.mul_lt_mul_of_lt_of_le few (tens.trans (by norm_num)) (by positivity)
      rw [nearest.isFinite_iff, whole]
      exact Double.natCast_lt_limit (k := 127) bound (by norm_num)
    refine ⟨_, ?_, nearest⟩
    rw [Numeral.scaled?, if_neg some, if_neg (by omega), if_pos natural]
    exact if_pos reached
  · have exponent : (d.exponent.natAbs : ℤ) = -d.exponent := by omega
    have nearest := Decimal.nearest_quotient few finite power
    rw [exponent, neg_neg] at nearest
    refine ⟨_, ?_, nearest⟩
    rw [Numeral.scaled?, if_neg some, if_neg (by omega), if_neg natural, if_pos (by omega)]

theorem isFinite_div {x p : Float} (finite : x.isFinite) (divisor : p.isFinite)
    (one : 1 ≤ Double.exact p) :
    (x / p).isFinite := by
  have positive : 0 < Double.exact p := zero_lt_one.trans_le one
  rw [(Double.nearest_div finite divisor positive.ne').isFinite_iff, abs_div, abs_of_pos positive]
  exact (div_le_self (abs_nonneg _) one).trans_lt (Double.exact_bounded x)

theorem one_le_power {k : ℕ} (small : k ≤ 308) :
    (Decimal.toFloat ⟨1, k⟩).isFinite ∧ 1 ≤ Double.exact (Decimal.toFloat ⟨1, k⟩) := by
  have finite := Decimal.isFinite_power (k := k) small
  have order : Double.rounded (1 : ℕ) ≤ Double.rounded (10 ^ k) :=
    Double.rounded_mono (by exact_mod_cast Nat.one_le_pow k 10 (by norm_num))
  rw [Double.rounded_natCast (by norm_num), Nat.cast_one,
    ← (Decimal.nearest_power k).exact_eq finite] at order
  exact ⟨finite, order⟩

theorem isFinite_scaled? {n : ℕ} {e : ℤ} {y : Float} (few : n < UInt64.size)
    (scaled : Numeral.scaled? n e = some y) : y.isFinite := by
  have whole := Double.isFinite_toFloat_ofNat few
  have quotient {x : Float} {k : ℤ} (finite : x.isFinite) (natural : 0 ≤ k)
      (small : k ≤ 308) :
      (x / Decimal.toFloat ⟨1, k⟩).isFinite := by
    obtain ⟨k, rfl⟩ := Int.eq_ofNat_of_zero_le natural
    obtain ⟨divisor, one⟩ := one_le_power (k := k) (by omega)
    exact isFinite_div finite divisor one
  simp only [Numeral.scaled?] at scaled
  split_ifs at scaled with none large natural reached close far
  · cases scaled
    decide +kernel
  · cases scaled
    exact reached
  · cases scaled
    exact quotient whole (by omega) (by omega)
  · cases scaled
    exact quotient (quotient whole (by norm_num) le_rfl) (by omega) (by omega)
  · cases scaled
    decide +kernel

theorem ofFloat?_cases {x : Float} (finite : x.isFinite) :
    (∃ s, x.toModel.unpack = .zero s ∧
      Numeral.ofFloat? x = some (Numeral.ofDecimal (Numeral.isNegative s) ⟨0, 0⟩)) ∨
    ∃ s m q positive, x.toModel.unpack = .finite s m q positive ∧
      Numeral.ofFloat? x =
        some (Numeral.ofDecimal (Numeral.isNegative s) (Decimal.shortest .even x.abs m q)) := by
  change x.toModel.unpack.isFinite at finite
  rw [Numeral.ofFloat?]
  cases unpacked : x.toModel.unpack with
  | notANumber | infinity s =>
      rw [unpacked] at finite
      cases finite
  | zero s => exact .inl ⟨s, rfl, rfl⟩
  | finite s m q positive => exact .inr ⟨s, m, q, positive, rfl, rfl⟩

def Brief (x : Float) : Prop := ∀ n ∈ Numeral.ofFloat? x, n.decimal.Short

instance (x : Float) : Decidable (Brief x) :=
  inferInstanceAs (Decidable (∀ n ∈ Numeral.ofFloat? x, n.decimal.Short))

theorem value_written (negative : Bool) (d : Decimal) :
    (Numeral.ofDecimal negative d).decimal.value = d.value := by
  rcases Numeral.decimal_ofDecimal negative d with same | ⟨whole, longer⟩
  · rw [same]
  · obtain ⟨k, exponent⟩ := Int.eq_ofNat_of_zero_le whole
    rw [longer, Decimal.value, Decimal.value, exponent]
    simp
    ring

/-- What a writer has made of a double is no integer, and is scaled as it is read. -/
theorem reread?_written {x : Float} {negative : Bool} {d : Decimal} (tidy : d.Tidy)
    (written : Numeral.ofFloat? x = some (Numeral.ofDecimal negative d)) :
    reread? x = (Numeral.scaled? (Numeral.ofDecimal negative d).kept.digits
      (Numeral.ofDecimal negative d).kept.exponent).map fun y => if negative then -y else y := by
  rw [reread?, written, Option.bind_some,
    Numeral.amount?_pointed (Numeral.whole_ofDecimal_few _ tidy)
      (Numeral.pointed_ofDecimal negative d),
    Option.map_map, Numeral.negative_ofDecimal]
  rfl

theorem nearest_digits {x : Float} {s : Float.Model.UnpackedFloat.Sign} {m : ℕ} {q : ℤ}
    {positive : 0 < m} (unpacked : x.toModel.unpack = .finite s m q positive) :
    Nearest x.abs (Decimal.shortest .even x.abs m q).value ∧ Double.exact x.abs = m * 2 ^ q := by
  have magnitude := Double.exact_abs unpacked
  exact ⟨Decimal.nearest_shortest (Double.isFinite_abs unpacked) magnitude, magnitude⟩

def reach : ℚ := ((2 ^ 53 - 3 : ℕ) : ℚ) * 2 ^ (971 : ℤ)

theorem rounded_reach : Double.rounded reach = reach := by
  have canonical : Double.Canonical (.finite .positive (2 ^ 53 - 3) 971 (by norm_num)) :=
    ⟨by norm_num, by norm_num, .inl (by norm_num)⟩
  have same := (Double.isNearest_self canonical rfl).value_eq
  rw [Double.value_finite, Double.factor, one_mul] at same
  exact same.symm

theorem reach_le : reach ≤ 10 ^ (309 : ℤ) := by
  have digits : (2 ^ 53 - 3) * 2 ^ 971 ≤ 10 ^ 309 := by decide +kernel
  rw [reach]
  exact_mod_cast digits

theorem rounded_mul_lt_limit {v w : ℚ} (left : 1 ≤ v) (right : 1 ≤ w)
    (small : v * w < reach) :
    |Double.rounded v * Double.rounded w| < Double.limit := by
  have normal : (2 : ℚ) ^ (-1022 : ℤ) ≤ 1 :=
    zpow_le_one_of_nonpos₀ (by norm_num) (by norm_num)
  have first := Double.rounded_le_mul (normal.trans left)
  have second := Double.rounded_le_mul (normal.trans right)
  have nonneg {u : ℚ} (one : 1 ≤ u) : 0 ≤ Double.rounded u := by
    have mono := Double.rounded_mono (zero_le_one.trans one)
    rwa [Double.rounded_zero] at mono
  have bound : reach * ((1 + 1 / 2 ^ 53) * (1 + 1 / 2 ^ 53)) ≤ Double.limit := by
    rw [reach, Double.two_zpow_971, Double.limit_eq, mul_right_comm, ← mul_assoc]
    exact mul_le_mul_of_nonneg_right (by norm_num) (by positivity)
  rw [abs_of_nonneg (mul_nonneg (nonneg left) (nonneg right))]
  calc Double.rounded v * Double.rounded w
      ≤ v * (1 + 1 / 2 ^ 53) * (w * (1 + 1 / 2 ^ 53)) :=
        mul_le_mul first second (nonneg right) (by positivity)
    _ = v * w * ((1 + 1 / 2 ^ 53) * (1 + 1 / 2 ^ 53)) := mul_mul_mul_comm ..
    _ < reach * ((1 + 1 / 2 ^ 53) * (1 + 1 / 2 ^ 53)) := mul_lt_mul_of_pos_right small (by norm_num)
    _ ≤ Double.limit := bound

/-- Only what is close to the greatest double is too much to be scaled. -/
theorem isSome_scaled? {d : Decimal} (few : d.digits < UInt64.size) (small : d.value < reach) :
    (Numeral.scaled? d.digits d.exponent).isSome := by
  rw [Numeral.scaled?]
  by_cases none : d.digits = 0
  · rw [if_pos none]
    rfl
  have one : (1 : ℚ) ≤ d.digits := by exact_mod_cast Nat.one_le_iff_ne_zero.mpr none
  have exponent : d.exponent ≤ 308 := by
    by_contra large
    have order : (10 : ℚ) ^ (309 : ℤ) ≤ 10 ^ d.exponent :=
      zpow_le_zpow_right₀ (by norm_num) (by omega)
    have value : (10 : ℚ) ^ d.exponent ≤ d.value := le_mul_of_one_le_left (by positivity) one
    linarith [reach_le]
  rw [if_neg none, if_neg (by omega)]
  by_cases natural : 0 ≤ d.exponent
  · obtain ⟨k, same⟩ := Int.eq_ofNat_of_zero_le natural
    have finite := Decimal.isFinite_power (k := k) (by omega)
    have number : d.value = d.digits * 10 ^ k := by
      rw [Decimal.value, same, zpow_natCast]
    have product := Double.nearest_mul (Double.isFinite_toFloat_ofNat few) finite
    rw [Double.toFloat_ofNat few,
      (Double.nearest_ofNat d.digits).exact_eq (Double.isFinite_ofNat few),
      (Decimal.nearest_power k).exact_eq finite, ← Double.toFloat_ofNat few] at product
    have reached :
        ((UInt64.ofNat d.digits).toFloat * Decimal.toFloat ⟨1, d.exponent⟩).isFinite := by
      rw [same]
      exact product.isFinite_iff.mpr
        (rounded_mul_lt_limit one (one_le_pow₀ (by norm_num)) (number ▸ small))
    rw [if_pos natural]
    simp only [reached, if_true]
    rfl
  · rw [if_neg natural]
    split_ifs <;> rfl

theorem le_of_reach_le {m : ℕ} {q : ℤ} (few : m < 2 ^ 53) (most : q ≤ 971)
    (large : reach ≤ m * 2 ^ q) :
    q = 971 ∧ 2 ^ 53 - 3 ≤ m := by
  rcases most.lt_or_eq with less | rfl
  · have digits : (m : ℚ) ≤ 2 ^ 53 := by exact_mod_cast few.le
    have power : (2 : ℚ) ^ q ≤ 2 ^ 970 := by
      rw [← zpow_natCast]
      exact zpow_le_zpow_right₀ (by norm_num) (by omega)
    have product : (m : ℚ) * 2 ^ q ≤ 2 ^ 53 * 2 ^ 970 :=
      mul_le_mul digits power (by positivity) (by positivity)
    have bound : (2 : ℚ) ^ 53 * 2 ^ 970 < reach := by
      rw [reach, Double.two_zpow_971, ← mul_assoc]
      exact mul_lt_mul_of_pos_right (by norm_num) (by positivity)
    exact absurd (large.trans product) bound.not_ge
  · rw [reach, mul_le_mul_iff_left₀ (by positivity), Nat.cast_le] at large
    exact ⟨rfl, large⟩

theorem isSome_last : ∀ k : Fin 3,
    let m := 2 ^ 53 - 3 + k.val
    let d := Decimal.shortest .even (.ofModel (.pack (.finite .positive m 971 (by omega)))) m 971
    (Numeral.scaled? (Numeral.ofDecimal false d).kept.digits
      (Numeral.ofDecimal false d).kept.exponent).isSome := by
  decide +kernel

/-- Every finite double is read as some double. -/
theorem exists_reread? {x : Float} (finite : x.isFinite) : ∃ y, reread? x = some y := by
  rw [← Option.isSome_iff_exists]
  rcases ofFloat?_cases finite with
    ⟨s, unpacked, written⟩ | ⟨s, m, q, positive, unpacked, written⟩
  · rw [← Double.ofModel_pack_unpack finite, unpacked]
    cases s <;> decide +kernel
  have tidy : (Decimal.shortest .even x.abs m q).Tidy := Decimal.tidy_normal _
  have whole := Numeral.whole_ofDecimal_few false tidy
  rw [reread?_written tidy written, Option.isSome_map, Numeral.kept_ofDecimal]
  by_cases last : reach ≤ m * 2 ^ q
  · have canonical : Double.Canonical x.toModel.unpack := Double.canonical_unpack _
    have fits : Double.Fits x.toModel.unpack := Double.fits_of_isFinite_unpack finite
    rw [unpacked] at canonical fits
    obtain ⟨rfl, least⟩ := le_of_reach_le canonical.1 (Int.lt_add_one_iff.mp fits) last
    obtain ⟨k, rfl⟩ := Nat.exists_eq_add_of_le least
    have three : k < 3 := by
      have few := canonical.1
      omega
    rw [← Double.ofModel_pack_unpack (Double.isFinite_abs unpacked), Double.unpack_abs unpacked]
    exact isSome_last ⟨k, three⟩
  · obtain ⟨nearest, magnitude⟩ := nearest_digits unpacked
    have small : (Decimal.shortest .even x.abs m q).value < reach := by
      by_contra large
      have order := Double.rounded_mono (not_lt.mp large)
      rw [rounded_reach, ← nearest.exact_eq (Double.isFinite_abs unpacked), magnitude] at order
      exact last order
    refine isSome_scaled? (Numeral.kept_few whole) (lt_of_le_of_lt (Numeral.value_kept_le whole) ?_)
    rwa [value_written]

theorem isFinite_reread? {x y : Float} (finite : x.isFinite) (again : reread? x = some y) :
    y.isFinite := by
  rcases ofFloat?_cases finite with ⟨s, unpacked, -⟩ | ⟨s, m, q, positive, -, written⟩
  · rw [← Double.ofModel_pack_unpack finite, unpacked] at again
    have same : x = y := by
      rw [← Double.ofModel_pack_unpack finite, unpacked, ← Option.some.injEq, ← again]
      cases s <;> decide +kernel
    exact same ▸ finite
  · have tidy : (Decimal.shortest .even x.abs m q).Tidy := Decimal.tidy_normal _
    rw [reread?_written tidy written, Option.map_eq_some_iff] at again
    obtain ⟨z, scaled, rfl⟩ := again
    have reached := isFinite_scaled? (Numeral.kept_few (Numeral.whole_ofDecimal_few _ tidy)) scaled
    split
    · rw [Double.isFinite_neg_iff]
      exact reached
    · exact reached

/-- A double of few digits comes back as it was. -/
theorem reread?_brief {x : Float} (finite : x.isFinite) (brief : Brief x) : reread? x = some x := by
  rcases ofFloat?_cases finite with
    ⟨s, unpacked, written⟩ | ⟨s, m, q, positive, unpacked, written⟩
  · rw [← Double.ofModel_pack_unpack finite, unpacked]
    cases s <;> decide +kernel
  · obtain ⟨nearest, magnitude⟩ := nearest_digits unpacked
    have tidy : (Decimal.shortest .even x.abs m q).Tidy := Decimal.tidy_normal _
    have some : (Decimal.shortest .even x.abs m q).value ≠ 0 :=
      (Decimal.value_shortest_pos (Double.isFinite_abs unpacked) magnitude positive).ne'
    generalize Decimal.shortest .even x.abs m q = d at written nearest tidy some
    have short : (Numeral.ofDecimal (Numeral.isNegative s) d).decimal.Short := brief _ written
    have number := value_written (Numeral.isNegative s) d
    rw [reread?_written tidy written, Numeral.kept_eq (short.1.trans (by decide))]
    generalize (Numeral.ofDecimal (Numeral.isNegative s) d).decimal = e at short number
    have filled : e.digits ≠ 0 := by
      intro none
      apply some
      rw [← number, Decimal.value, none, Nat.cast_zero, zero_mul]
    obtain ⟨y, scaled, near⟩ := scaled?_short short filled
    rw [number] at near
    rw [scaled, near.unique nearest some, Option.map_some]
    cases s with
    | negative => exact congrArg Option.some (Double.neg_abs_of_negative unpacked)
    | positive => exact congrArg Option.some (Double.abs_of_positive unpacked)

end TouchGesture.Json
