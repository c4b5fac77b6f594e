import TouchGesture.Proofs.Double.Exact

/-! Operations on finite doubles: each gives the double that is nearest to the exact result, and
that one is finite exactly when the result is below the limit. -/

namespace TouchGesture.Double

open Float.Model Float.Model.UnpackedFloat

def exact (x : Float) : ℚ := value x.toModel.unpack

/-- The double that a number is rounded to. A zero may have either sign. -/
def Nearest (z : Float) (v : ℚ) : Prop :=
  ∃ u, IsNearest u v ∧ z = .ofModel (Float.Model.pack u)

section Operations

variable {x y z : Float} {v : ℚ}

namespace Nearest

theorem isFinite_iff (nearest : Nearest z v) : z.isFinite ↔ |v| < limit := by
  obtain ⟨u, unpacked, rfl⟩ := nearest
  exact isFinite_pack.trans unpacked.fits_iff

theorem exact_eq (nearest : Nearest z v) (finite : z.isFinite) : exact z = rounded v := by
  obtain ⟨u, unpacked, rfl⟩ := nearest
  rw [exact, ← unpacked.value_eq]
  exact congrArg value (unpack_pack unpacked.canonical (isFinite_pack.mp finite))

theorem unique (left : Nearest y v) (right : Nearest z v) (some : v ≠ 0) : y = z := by
  obtain ⟨u, unpacked, rfl⟩ := left
  obtain ⟨w, unpacked', rfl⟩ := right
  rw [unpacked.unique unpacked' some]

end Nearest

theorem ofModel_pack_unpack (finite : x.isFinite) :
    .ofModel (Float.Model.pack x.toModel.unpack) = x := by
  have bits : UnpackedFloat.pack Format.binary64 x.toModel.unpack = x.toModel.toBits.toBitVec :=
    pack_unpack finite
  obtain ⟨⟨bits', valid⟩⟩ := x
  simp only [Float.Model.pack, bits]

theorem nearest_self (finite : x.isFinite) : Nearest x (exact x) :=
  ⟨_, isNearest_self (canonical_unpack _) finite, (ofModel_pack_unpack finite).symm⟩

theorem exact_eq_zero (infinite : ¬ x.isFinite) : exact x = 0 := by
  change ¬ x.toModel.unpack.isFinite at infinite
  rw [exact]
  cases unpacked : x.toModel.unpack with
  | notANumber | infinity s | zero s => rfl
  | finite s m e positive =>
      rw [unpacked] at infinite
      exact absurd rfl infinite

@[simp] theorem rounded_exact (x : Float) : rounded (exact x) = exact x := by
  by_cases finite : x.isFinite
  · exact ((nearest_self finite).exact_eq finite).symm
  · rw [exact_eq_zero finite, rounded_zero]

theorem nearest_add (left : x.isFinite) (right : y.isFinite) :
    Nearest (x + y) (exact x + exact y) :=
  ⟨_, isNearest_add (canonical_unpack _) (canonical_unpack _) left right, rfl⟩

theorem nearest_sub (left : x.isFinite) (right : y.isFinite) :
    Nearest (x - y) (exact x - exact y) :=
  ⟨_, isNearest_sub (canonical_unpack _) (canonical_unpack _) left right, rfl⟩

theorem nearest_mul (left : x.isFinite) (right : y.isFinite) :
    Nearest (x * y) (exact x * exact y) :=
  ⟨_, isNearest_mul (canonical_unpack _) (canonical_unpack _) left right, rfl⟩

theorem nearest_div (left : x.isFinite) (right : y.isFinite) (some : exact y ≠ 0) :
    Nearest (x / y) (exact x / exact y) :=
  ⟨_, isNearest_div left right some, rfl⟩

section Whole

variable {n : ℕ}

theorem nearest_ofNat (n : ℕ) : Nearest (.ofModel (.ofNat n)) n := by
  have nearest := isNearest_normalize n 0 .positive
  rw [zpow_zero, mul_one, Int.cast_natCast] at nearest
  exact ⟨_, nearest, rfl⟩

theorem isFinite_ofNat (few : n < 2 ^ 64) : (Float.ofModel (.ofNat n)).isFinite :=
  (nearest_ofNat n).isFinite_iff.mpr (natCast_lt_limit few (by norm_num))

theorem exact_ofNat (few : n < 2 ^ 53) : exact (.ofModel (.ofNat n)) = n := by
  rw [(nearest_ofNat n).exact_eq (isFinite_ofNat (few.trans (by norm_num))), rounded_natCast few]

theorem toFloat_ofNat (few : n < 2 ^ 64) : (UInt64.ofNat n).toFloat = .ofModel (.ofNat n) := by
  have kept : (UInt64.ofNat n).toNat = n := UInt64.toNat_ofNat_of_lt few
  change Float.ofModel (.ofNat (UInt64.ofNat n).toNat) = _
  rw [kept]

theorem isFinite_toFloat_ofNat (few : n < 2 ^ 64) : (UInt64.ofNat n).toFloat.isFinite := by
  rw [toFloat_ofNat few]
  exact isFinite_ofNat few

theorem exact_toFloat_ofNat (few : n < 2 ^ 53) : exact (UInt64.ofNat n).toFloat = n := by
  rw [toFloat_ofNat (few.trans (by norm_num)), exact_ofNat few]

end Whole

private theorem fits_of_add {u w : UnpackedFloat}
    (fits : Fits (UnpackedFloat.add Format.binary64 u w)) : u.isFinite ∧ w.isFinite := by
  cases u with
  | notANumber => exact fits.elim
  | infinity s =>
      cases w with
      | infinity s' =>
          simp only [UnpackedFloat.add] at fits
          split_ifs at fits <;> exact fits.elim
      | notANumber | zero s' | finite s' m' e' positive' => exact fits.elim
  | zero s | finite s m e positive =>
      cases w with
      | notANumber | infinity s' => exact fits.elim
      | zero s' | finite s' m' e' positive' => exact ⟨rfl, rfl⟩

private theorem fits_of_div {u v : UnpackedFloat}
    (fits : Fits (UnpackedFloat.div Format.binary64 u v)) : u.isFinite := by
  cases u with
  | zero s | finite s m e positive => rfl
  | notANumber => exact fits.elim
  | infinity s => cases v <;> exact fits.elim

theorem exact_bounded (x : Float) : |exact x| < limit := by
  by_cases finite : x.isFinite
  · exact (nearest_self finite).isFinite_iff.mp finite
  · rw [exact_eq_zero finite, abs_zero]
    exact limit_pos

/-- A sum of finite doubles is finite exactly when the sum without rounding is below the limit. -/
theorem isFinite_add_iff (left : x.isFinite) (right : y.isFinite) :
    (x + y).isFinite ↔ |exact x + exact y| < limit := (nearest_add left right).isFinite_iff

theorem isFinite_of_add (finite : (x + y).isFinite) : x.isFinite ∧ y.isFinite :=
  fits_of_add (isFinite_pack.mp finite)

theorem isFinite_of_sub (finite : (x - y).isFinite) : x.isFinite ∧ y.isFinite := by
  have fits : Fits (UnpackedFloat.sub Format.binary64 x.toModel.unpack y.toModel.unpack) :=
    isFinite_pack.mp finite
  rw [sub_eq_add] at fits
  have both := fits_of_add fits
  rwa [isFinite_neg] at both

theorem isFinite_of_div (finite : (x / y).isFinite) : x.isFinite :=
  fits_of_div (isFinite_pack.mp finite)

end Operations

section Magnitude

variable {x : Float} {s : Sign} {m : ℕ} {e : ℤ} {positive : 0 < m}

theorem isFinite_of_unpack (unpacked : x.toModel.unpack = .finite s m e positive) : x.isFinite := by
  change x.toModel.unpack.isFinite
  rw [unpacked]
  rfl

theorem digits_of_unpack (unpacked : x.toModel.unpack = .finite s m e positive) :
    m < 2 ^ 53 ∧ -1074 ≤ e ∧ e < 972 ∧ (2 ^ 52 ≤ m ∨ e = -1074) := by
  have canonical : Canonical x.toModel.unpack := canonical_unpack _
  have fits : Fits x.toModel.unpack := fits_of_isFinite_unpack (isFinite_of_unpack unpacked)
  rw [unpacked] at canonical fits
  exact ⟨canonical.1, canonical.2.1, fits, canonical.2.2⟩

theorem unpack_abs (unpacked : x.toModel.unpack = .finite s m e positive) :
    x.abs.toModel.unpack = .finite .positive m e positive := by
  obtain ⟨few, least, fits, full⟩ := digits_of_unpack unpacked
  have abs : x.abs = .ofModel (Float.Model.pack (.finite .positive m e positive)) := by
    change Float.ofModel (Float.Model.pack x.toModel.unpack.abs) = _
    rw [unpacked]
    rfl
  rw [abs]
  exact unpack_pack (u := .finite .positive m e positive) ⟨few, least, full⟩ fits

theorem isFinite_abs (unpacked : x.toModel.unpack = .finite s m e positive) : x.abs.isFinite :=
  isFinite_of_unpack (unpack_abs unpacked)

theorem abs_exact (unpacked : x.toModel.unpack = .finite s m e positive) :
    |exact x| = m * 2 ^ e := by
  rw [exact, unpacked, value_finite, abs_mul, abs_factor, one_mul, abs_of_nonneg (by positivity)]

theorem exact_of_positive (unpacked : x.toModel.unpack = .finite .positive m e positive) :
    exact x = m * 2 ^ e := by
  rw [exact, unpacked, value_finite, factor, one_mul]

theorem exact_abs (unpacked : x.toModel.unpack = .finite s m e positive) :
    exact x.abs = m * 2 ^ e :=
  exact_of_positive (unpack_abs unpacked)

theorem abs_of_positive (unpacked : x.toModel.unpack = .finite .positive m e positive) :
    x.abs = x := by
  rw [← ofModel_pack_unpack (isFinite_abs unpacked), unpack_abs unpacked, ← unpacked,
    ofModel_pack_unpack (isFinite_of_unpack unpacked)]

theorem neg_abs_of_negative (unpacked : x.toModel.unpack = .finite .negative m e positive) :
    -x.abs = x := by
  change Float.ofModel (Float.Model.pack x.abs.toModel.unpack.neg) = x
  rw [unpack_abs unpacked]
  change Float.ofModel (Float.Model.pack (.finite .negative m e positive)) = x
  rw [← unpacked, ofModel_pack_unpack (isFinite_of_unpack unpacked)]

end Magnitude

end TouchGesture.Double
