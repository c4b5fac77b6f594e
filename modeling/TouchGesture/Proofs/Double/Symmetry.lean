import TouchGesture.Proofs.Double.Finite

/-! Which doubles are equal, and what a change of sign does to an operation. Rounding treats both
sides of zero alike, so that mirrored operands give mirrored results, the sign of a zero aside. -/

namespace TouchGesture.Double

open Float.Model Float.Model.UnpackedFloat

section Packing

variable {b : BitVec Format.binary64.numBits} {s : Sign}

theorem unpack_pack_infinity (s : Sign) :
    UnpackedFloat.unpack Format.binary64 (UnpackedFloat.pack Format.binary64 (.infinity s)) =
      .infinity s := by
  cases s <;> rfl

theorem unpack_pack_notANumber :
    UnpackedFloat.unpack Format.binary64 (UnpackedFloat.pack Format.binary64 .notANumber) =
      .notANumber := rfl

theorem pack_infinity (unpacked : UnpackedFloat.unpack Format.binary64 b = .infinity s) :
    UnpackedFloat.pack Format.binary64 (.infinity s) = b := by
  have parts := packComponents_unpacked b
  simp only [UnpackedFloat.unpack] at unpacked
  split_ifs at unpacked with special none
  have sign : Sign.ofBitVec (unpackSign b) = s := UnpackedFloat.infinity.inj unpacked
  rw [special, none, sign] at parts
  exact parts

theorem pack_of_overflow {m : ℕ} {e : ℤ} {positive : 0 < m} (large : 972 ≤ e) :
    UnpackedFloat.pack Format.binary64 (.finite s m e positive) =
      UnpackedFloat.pack Format.binary64 (.infinity s) := by
  have fields : 2 ^ Format.binary64.exponentBits ≤
      (e + Format.binary64.exponentBias + Format.binary64.mantissaBitsWithoutImplicit).toNat +
        1 := by
    change 2048 ≤ (e + 1023 + 52).toNat + 1
    omega
  simp only [UnpackedFloat.pack, if_pos fields]

theorem pack_of_not_fits {r : ℕ} {t : ℤ} (out : ¬ Fits (carried s r t)) :
    UnpackedFloat.pack Format.binary64 (carried s r t) =
      UnpackedFloat.pack Format.binary64 (.infinity s) := by
  rw [carried] at out ⊢
  split_ifs at out ⊢ with none few
  · exact absurd trivial out
  · exact pack_of_overflow (not_lt.mp out)
  · exact pack_of_overflow (not_lt.mp out)

end Packing

variable {x y z m : Float} {v : ℚ} {s : Sign}

theorem unpack_neg (x : Float) : (-x).toModel.unpack = x.toModel.unpack.neg := by
  have canonical : Canonical x.toModel.unpack := canonical_unpack _
  have fits : x.toModel.unpack.isFinite → Fits x.toModel.unpack := fits_of_isFinite_unpack
  change UnpackedFloat.unpack Format.binary64
    (UnpackedFloat.pack Format.binary64 x.toModel.unpack.neg) = _
  cases unpacked : x.toModel.unpack with
  | notANumber => exact unpack_pack_notANumber
  | infinity s => exact unpack_pack_infinity (-s)
  | zero s | finite s m e positive =>
      rw [unpacked] at canonical fits
      exact unpack_pack (canonical_neg canonical) (fits rfl)

theorem ofModel_pack_infinity (unpacked : x.toModel.unpack = .infinity s) :
    .ofModel (Float.Model.pack (.infinity s)) = x := by
  have bits : UnpackedFloat.pack Format.binary64 (.infinity s) = x.toModel.toBits.toBitVec :=
    pack_infinity unpacked
  obtain ⟨⟨bits', valid⟩⟩ := x
  simp only [Float.Model.pack, bits]

@[simp] theorem isFinite_neg_iff : (-x).isFinite ↔ x.isFinite := by
  change (-x).toModel.unpack.isFinite ↔ x.toModel.unpack.isFinite
  rw [unpack_neg, isFinite_neg]

theorem exact_neg (x : Float) : exact (-x) = -exact x := by
  rw [exact, unpack_neg, value_neg, exact]

theorem neg_ofModel_pack {u : UnpackedFloat} (canonical : Canonical u) :
    -Float.ofModel (Float.Model.pack u) = .ofModel (Float.Model.pack u.neg) := by
  change Float.ofModel (Float.Model.pack
    (UnpackedFloat.unpack Format.binary64 (UnpackedFloat.pack Format.binary64 u)).neg) = _
  cases u with
  | notANumber => rw [unpack_pack_notANumber]
  | infinity s => rw [unpack_pack_infinity]
  | zero s => rw [unpack_pack canonical trivial]
  | finite s m e positive =>
      by_cases small : e < 972
      · rw [unpack_pack canonical small]
      · have large : 972 ≤ e := not_lt.mp small
        have packed : Float.Model.pack (.finite (-s) m e positive) =
            Float.Model.pack (.infinity (-s)) := by
          simp only [Float.Model.pack, pack_of_overflow large]
        rw [pack_of_overflow large, unpack_pack_infinity]
        exact congrArg Float.ofModel packed.symm

/-- A difference is the sum with the opposite, whatever the operands are. -/
theorem sub_eq_add_opposite (x y : Float) : x - y = x + -y := by
  change Float.ofModel (Float.Model.pack (UnpackedFloat.sub Format.binary64 _ _)) =
    .ofModel (Float.Model.pack (UnpackedFloat.add Format.binary64 _ (-y).toModel.unpack))
  rw [sub_eq_add, unpack_neg]

theorem opposite_mul (s s' : Sign) : -s * s' = -(s * s') := by
  cases s <;> cases s' <;> rfl

theorem roundWithAccuracy_opposite (s : Sign) (m : ℕ) (e : ℤ) (a : Accuracy) :
    roundWithAccuracy Format.binary64 (-s) m e a =
      (roundWithAccuracy Format.binary64 s m e a).neg := by
  simp only [roundWithAccuracy]
  split_ifs <;> rfl

theorem mul_neg_left (u w : UnpackedFloat) :
    UnpackedFloat.mul Format.binary64 u.neg w = (UnpackedFloat.mul Format.binary64 u w).neg := by
  cases u with
  | notANumber => rfl
  | infinity s | zero s =>
      cases w with
      | notANumber => rfl
      | infinity s' | zero s' | finite s' m' e' positive' =>
          simp only [UnpackedFloat.mul, UnpackedFloat.neg, opposite_mul]
  | finite s m e positive =>
      cases w with
      | notANumber => rfl
      | infinity s' | zero s' => simp only [UnpackedFloat.mul, UnpackedFloat.neg, opposite_mul]
      | finite s' m' e' positive' =>
          simp only [UnpackedFloat.mul, UnpackedFloat.neg, opposite_mul, roundWithAccuracy_opposite]

theorem neg_mul_of_isFinite (left : x.isFinite) (right : y.isFinite) : -x * y = -(x * y) := by
  have canonical := (isNearest_mul (canonical_unpack _) (canonical_unpack _) left right).canonical
  change Float.ofModel
    (Float.Model.pack (UnpackedFloat.mul Format.binary64 (-x).toModel.unpack _)) = _
  rw [unpack_neg, mul_neg_left]
  exact (neg_ofModel_pack canonical).symm

theorem factor_opposite (s : Sign) : factor (-s) = -factor s := by
  cases s with
  | negative => exact (neg_neg 1).symm
  | positive => rfl

theorem neg_carried (s : Sign) (r : ℕ) (t : ℤ) : (carried s r t).neg = carried (-s) r t := by
  simp only [carried]
  split_ifs <;> rfl

namespace Nearest

theorem neg (nearest : Nearest z v) : Nearest (-z) (-v) := by
  obtain ⟨u, ⟨s, sign, rfl⟩, rfl⟩ := nearest
  refine ⟨nearestDouble (-s) |v|, ⟨-s, ?_, by rw [abs_neg]⟩, ?_⟩
  · rw [factor_opposite, abs_neg, neg_mul, ← sign]
  · rw [neg_ofModel_pack (canonical_nearestDouble s (abs_nonneg v)), nearestDouble, neg_carried,
      ← nearestDouble]

theorem not_isNaN (nearest : Nearest z v) : ¬ z.isNaN := by
  obtain ⟨u, ⟨s, -, rfl⟩, rfl⟩ := nearest
  have canonical := canonical_nearestDouble s (abs_nonneg v)
  change ¬ (UnpackedFloat.unpack Format.binary64 (UnpackedFloat.pack Format.binary64 _)).isNaN
  by_cases fits : Fits (nearestDouble s |v|)
  · rw [unpack_pack canonical fits]
    cases unpacked : nearestDouble s |v| with
    | notANumber | infinity s' => rw [unpacked] at fits; exact fits.elim
    | zero s' | finite s' m e positive => exact Bool.false_ne_true
  · rw [nearestDouble] at fits ⊢
    rw [pack_of_not_fits fits, unpack_pack_infinity]
    exact Bool.false_ne_true

end Nearest

section Equality

theorem beq_iff : x == y ↔ x.toModel.unpack.compare y.toModel.unpack = some .eq := by
  change (x.toModel.unpack.compare y.toModel.unpack == some .eq) = true ↔ _
  exact beq_iff_eq

theorem beq_refl (number : ¬ x.isNaN) : x == x := by
  change ¬ x.toModel.unpack.isNaN at number
  rw [beq_iff]
  cases unpacked : x.toModel.unpack with
  | notANumber =>
      rw [unpacked] at number
      exact absurd rfl number
  | infinity s => cases s <;> rfl
  | zero s => rfl
  | finite s m e positive => cases s <;> simp [UnpackedFloat.compare]

theorem exact_eq_of_beq (same : x == y) : exact x = exact y := by
  rw [beq_iff] at same
  simp only [exact]
  generalize x.toModel.unpack = u at same ⊢
  generalize y.toModel.unpack = w at same ⊢
  cases u with
  | notANumber => cases same
  | infinity s =>
      cases w with
      | notANumber => cases same
      | infinity s' | zero s' => rfl
      | finite s' m' e' positive' => cases s <;> cases same
  | zero s =>
      cases w with
      | notANumber => cases same
      | infinity s' | zero s' => rfl
      | finite s' m' e' positive' => cases s' <;> cases same
  | finite s m e positive =>
      cases w with
      | notANumber => cases same
      | infinity s' => cases s' <;> cases same
      | zero s' => cases s <;> cases same
      | finite s' m' e' positive' =>
          cases s <;> cases s' <;>
            simp_all [UnpackedFloat.compare, Ordering.swap_eq_eq, Ordering.then_eq_eq, value]

theorem unpack_of_exact_eq_zero (finite : x.isFinite) (none : exact x = 0) :
    ∃ s, x.toModel.unpack = .zero s := by
  change x.toModel.unpack.isFinite at finite
  rw [exact] at none
  cases unpacked : x.toModel.unpack with
  | notANumber | infinity s =>
      rw [unpacked] at finite
      cases finite
  | zero s => exact ⟨s, rfl⟩
  | finite s m e positive =>
      rw [unpacked, value_finite] at none
      have size : |factor s * (m * 2 ^ e)| = 0 := by rw [none, abs_zero]
      rw [abs_mul, abs_factor, one_mul, abs_eq_zero] at size
      exact absurd size (by positivity)

/-- Doubles that are nearest to one number are equal: at most the sign of a zero tells them
apart. -/
theorem Nearest.beq (left : Nearest y v) (right : Nearest z v) : y == z := by
  by_cases none : v = 0
  · subst none
    have small : |(0 : ℚ)| < limit := by simpa using limit_pos
    have finite := left.isFinite_iff.mpr small
    have finite' := right.isFinite_iff.mpr small
    obtain ⟨s, zero⟩ :=
      unpack_of_exact_eq_zero finite (by rw [left.exact_eq finite, rounded_zero])
    obtain ⟨s', zero'⟩ :=
      unpack_of_exact_eq_zero finite' (by rw [right.exact_eq finite', rounded_zero])
    rw [beq_iff, zero, zero']
    rfl
  · rw [left.unique right none]
    exact beq_refl right.not_isNaN

end Equality

section Infinity

theorem exists_infinity (number : ¬ x.isNaN) (infinite : ¬ x.isFinite) :
    ∃ s, x.toModel.unpack = .infinity s := by
  change ¬ x.toModel.unpack.isNaN at number
  change ¬ x.toModel.unpack.isFinite at infinite
  cases unpacked : x.toModel.unpack with
  | notANumber =>
      rw [unpacked] at number
      exact absurd rfl number
  | infinity s => exact ⟨s, rfl⟩
  | zero s | finite s m e positive =>
      rw [unpacked] at infinite
      exact absurd rfl infinite

theorem infinity_add (infinite : x.toModel.unpack = .infinity s)
    (finite : y.isFinite) : x + y = x := by
  change y.toModel.unpack.isFinite at finite
  have sum : UnpackedFloat.add Format.binary64 (.infinity s) y.toModel.unpack = .infinity s := by
    generalize y.toModel.unpack = w at finite ⊢
    cases w with
    | notANumber | infinity s' => cases finite
    | zero s' | finite s' m' e' positive' => rfl
  change Float.ofModel (Float.Model.pack (UnpackedFloat.add Format.binary64 _ _)) = x
  rw [infinite, sum]
  exact ofModel_pack_infinity infinite

theorem add_infinity (finite : x.isFinite) (infinite : y.toModel.unpack = .infinity s) :
    x + y = y := by
  change x.toModel.unpack.isFinite at finite
  have sum : UnpackedFloat.add Format.binary64 x.toModel.unpack (.infinity s) = .infinity s := by
    generalize x.toModel.unpack = w at finite ⊢
    cases w with
    | notANumber | infinity s' => cases finite
    | zero s' | finite s' m' e' positive' => rfl
  change Float.ofModel (Float.Model.pack (UnpackedFloat.add Format.binary64 _ _)) = y
  rw [infinite, sum]
  exact ofModel_pack_infinity infinite

end Infinity

theorem add_zero_beq (number : ¬ x.isNaN) (finite : z.isFinite)
    (none : exact z = 0) : x + z == x := by
  by_cases bounded : x.isFinite
  · have sum := nearest_add bounded finite
    rw [none, add_zero] at sum
    exact sum.beq (nearest_self bounded)
  · obtain ⟨s, infinite⟩ := exists_infinity number bounded
    rw [infinity_add infinite finite]
    exact beq_refl number

/-- A delta of nothing leads nowhere, however often it is taken. -/
theorem add_mul_beq {d k : Float} (number : ¬ x.isNaN) (delta : d.isFinite) (none : exact d = 0)
    (count : k.isFinite) : x + d * k == x := by
  have product := nearest_mul delta count
  rw [none, MulZeroClass.zero_mul] at product
  have finite : (d * k).isFinite := product.isFinite_iff.mpr (by simpa using limit_pos)
  have zero : exact (d * k) = 0 := by rw [product.exact_eq finite, rounded_zero]
  exact add_zero_beq number finite zero

theorem add_neg_mul_eq_sub {d k : Float} (delta : d.isFinite) (count : k.isFinite) :
    x + -d * k = x - d * k :=
  calc x + -d * k = x + -(d * k) := by rw [neg_mul_of_isFinite delta count]
    _ = x - d * k := (sub_eq_add_opposite x (d * k)).symm

theorem sub_beq_neg_add (left : x.isFinite) (right : y.isFinite) (opposite : exact y = -exact x)
    (number : ¬ m.isNaN) : y - m == -(x + m) := by
  by_cases bounded : m.isFinite
  · have near := nearest_sub right bounded
    have far := (nearest_add left bounded).neg
    rw [opposite] at near
    rw [neg_add'] at far
    exact near.beq far
  · obtain ⟨s, infinite⟩ := exists_infinity number bounded
    have negated : (-m).toModel.unpack = .infinity (-s) := by
      rw [unpack_neg, infinite]
      rfl
    rw [sub_eq_add_opposite, add_infinity right negated, add_infinity left infinite]
    refine beq_refl ?_
    change ¬ (-m).toModel.unpack.isNaN
    rw [negated]
    exact Bool.false_ne_true

end TouchGesture.Double
