import TouchGesture.Proofs.Double.Nearest

/-! A double and its parts. What is packed comes back when it is unpacked, as long as it is written
the way the format writes it and its exponent fits. -/

namespace TouchGesture.Double

open Float.Model Float.Model.UnpackedFloat

/-- As the format writes a number: with 53 digits, or with the least exponent. -/
def Canonical : UnpackedFloat → Prop
  | .finite _ m e _ => m < 2 ^ 53 ∧ -1074 ≤ e ∧ (2 ^ 52 ≤ m ∨ e = -1074)
  | _ => True

theorem canonical_carried {s : Sign} {r : ℕ} {t : ℤ} (least : -1074 ≤ t)
    (full : 2 ^ 52 ≤ r ∨ t = -1074) :
    Canonical (carried s r t) := by
  rw [carried]
  split_ifs with none below
  · exact trivial
  · exact ⟨below, least, full⟩
  · exact ⟨by norm_num, by omega, .inl le_rfl⟩

theorem canonical_nearestDouble (s : Sign) {v : ℚ} (nonneg : 0 ≤ v) :
    Canonical (nearestDouble s v) := by
  rcases nonneg.eq_or_lt with rfl | positive
  · have none : roundEven ((0 : ℚ) / 2 ^ unit 0) = 0 := by
      rw [zero_div]
      exact_mod_cast roundEven_natCast 0
    rw [nearestDouble, carried, dif_pos none]
    exact trivial
  · apply canonical_carried (least_unit v)
    rcases (least_unit v).eq_or_lt with same | above
    · exact .inr same.symm
    · exact .inl (le_roundEven_units positive above)

section Components

variable {spec : Format}

@[simp] theorem unpackSign_packComponents {s : Sign} {exponent : BitVec spec.exponentBits}
    {mantissa : BitVec spec.mantissaBitsWithoutImplicit} :
    unpackSign (packComponents spec s exponent mantissa) = s.toBitVec := by
  ext i hi
  obtain rfl : i = 0 := by omega
  simp [unpackSign, packComponents, BitVec.getElem_append, BitVec.getLsbD_append]

@[simp] theorem ofBitVec_toBitVec (s : Sign) : Sign.ofBitVec s.toBitVec = s := by
  cases s <;> rfl

theorem toBitVec_ofBitVec (bit : BitVec 1) : (Sign.ofBitVec bit).toBitVec = bit := by
  revert bit
  decide

theorem packComponents_unpacked (b : BitVec spec.numBits) :
    packComponents spec (Sign.ofBitVec (unpackSign b)) (unpackExponent b)
      (unpackMantissa b) = b := by
  have mantissa := spec.hm
  have exponent := spec.he
  rw [packComponents, toBitVec_ofBitVec]
  apply BitVec.eq_of_getLsbD_eq
  intro i inside
  simp only [unpackSign, unpackExponent, unpackMantissa, BitVec.getLsbD_append, BitVec.getLsbD_cast,
    BitVec.getLsbD_extractLsb]
  split_ifs with low middle
  · simp
    omega
  · rw [Nat.add_sub_cancel' (Nat.le_of_not_lt low)]
    simp
    omega
  · rw [Nat.sub_sub, Nat.add_sub_cancel' (by omega)]
    simp
    omega

end Components

section Binary64

variable {b : BitVec Format.binary64.numBits} {s : Sign} {m : ℕ} {e : ℤ} {positive : 0 < m}

theorem isFinite_unpack :
    (UnpackedFloat.unpack Format.binary64 b).isFinite ↔ unpackExponent b ≠ -1#_ := by
  simp only [UnpackedFloat.unpack]
  split_ifs with special none least none
  · exact ⟨nofun, fun other => absurd special other⟩
  · exact ⟨nofun, fun other => absurd special other⟩
  · exact ⟨fun _ => special, fun _ => rfl⟩
  · exact ⟨fun _ => special, fun _ => rfl⟩
  · exact ⟨fun _ => special, fun _ => rfl⟩

theorem toNat_append_one (mantissa : BitVec 52) :
    (1#1 ++ mantissa).toNat = 2 ^ 52 + mantissa.toNat := by
  rw [BitVec.toNat_append, ← Nat.shiftLeft_add_eq_or_of_lt mantissa.isLt]
  rfl

theorem canonical_unpack (b : BitVec Format.binary64.numBits) :
    Canonical (UnpackedFloat.unpack Format.binary64 b) := by
  have few : (unpackMantissa b).toNat < 2 ^ 52 := (unpackMantissa b).isLt
  simp only [UnpackedFloat.unpack]
  split_ifs with special none least none
  · exact trivial
  · exact trivial
  · exact trivial
  · refine ⟨by omega, ?_, .inr ?_⟩ <;> rw [least] <;> decide
  · have some : (unpackExponent b).toNat ≠ 0 := fun zero => least (BitVec.eq_of_toNat_eq zero)
    have digits := toNat_append_one (unpackMantissa b)
    have bias : -1074 ≤ ((unpackExponent b).toNat : ℤ) - (1023 + 52) := by omega
    exact ⟨digits.trans_lt (by omega), bias, .inl (digits ▸ Nat.le_add_right _ _)⟩

theorem fits_of_isFinite_unpack (finite : (UnpackedFloat.unpack Format.binary64 b).isFinite) :
    Fits (UnpackedFloat.unpack Format.binary64 b) := by
  have other : (unpackExponent b).toNat ≠ 2047 := fun all =>
    isFinite_unpack.mp finite (BitVec.eq_of_toNat_eq all)
  have small : (unpackExponent b).toNat < 2048 := (unpackExponent b).isLt
  simp only [UnpackedFloat.unpack] at finite ⊢
  split_ifs with special none least none
  · rw [if_pos special, if_pos none] at finite
    cases finite
  · rw [if_pos special, if_neg none] at finite
    cases finite
  · exact trivial
  · rw [Fits, least]
    decide
  · change ((unpackExponent b).toNat : ℤ) - (1023 + 52) < 972
    omega

/-- What fits is packed as a finite double, and nothing else is. -/
theorem isFinite_pack {u : UnpackedFloat} :
    (Float.ofModel (Float.Model.pack u)).isFinite ↔ Fits u := by
  change (UnpackedFloat.unpack Format.binary64 (UnpackedFloat.pack Format.binary64 u)).isFinite ↔
    _
  rw [isFinite_unpack]
  cases u with
  | notANumber => simp [UnpackedFloat.pack, packedNaN, Fits]
  | infinity s => simp [UnpackedFloat.pack, packedInfinity, Fits]
  | zero s => simp [UnpackedFloat.pack, packedZero, Fits]
  | finite s m e positive =>
      have fields : 2 ^ Format.binary64.exponentBits ≤
          (e + Format.binary64.exponentBias + Format.binary64.mantissaBitsWithoutImplicit).toNat +
            1 ↔
            972 ≤ e := by
        change 2048 ≤ (e + 1023 + 52).toNat + 1 ↔ 972 ≤ e
        omega
      simp only [UnpackedFloat.pack, Fits]
      rw [← not_le, ← fields, ne_eq, not_iff_not]
      split_ifs with large normal
      · rw [packedInfinity, unpackExponent_packComponents]
        exact ⟨fun _ => large, fun _ => rfl⟩
      · rw [unpackExponent_packComponents]
        refine ⟨fun all => ?_, fun reached => absurd reached large⟩
        have field := congrArg BitVec.toNat all
        change (e + 1023 + 52).toNat % 2048 = 2047 at field
        change 2048 ≤ (e + 1023 + 52).toNat + 1
        omega
      · rw [unpackExponent_packComponents]
        exact ⟨fun all => absurd all (by decide), fun reached => absurd reached large⟩

theorem pack_finite (fits : e < 972) :
    UnpackedFloat.pack Format.binary64 (.finite s m e positive) =
      packComponents Format.binary64 s
        (if m.log2 = 52 then BitVec.ofNat 11 (e + 1075).toNat else 0) (BitVec.ofNat 52 m) := by
  have bias : e + Format.binary64.exponentBias + Format.binary64.mantissaBitsWithoutImplicit =
      e + 1075 :=
    Int.add_assoc e 1023 52
  have small : ¬ 2 ^ Format.binary64.exponentBits ≤ (e + 1075).toNat + 1 := by
    change ¬ 2048 ≤ (e + 1075).toNat + 1
    omega
  simp only [UnpackedFloat.pack, bias, if_neg small]
  change (if m.log2 + 1 = 53 then _ else _) = _
  simp only [Nat.reduceEqDiff]
  split_ifs <;> rfl

theorem unpack_normal {exponent : ℕ} (some : exponent ≠ 0) (ordinary : exponent < 2047)
    (full : 2 ^ 52 ≤ m) (few : m < 2 ^ 53) :
    UnpackedFloat.unpack Format.binary64
        (packComponents Format.binary64 s (BitVec.ofNat 11 exponent) (BitVec.ofNat 52 m)) =
      .finite s m (exponent - 1075) positive := by
  have field : (BitVec.ofNat 11 exponent).toNat = exponent := by
    rw [BitVec.toNat_ofNat]
    omega
  have special : BitVec.ofNat 11 exponent ≠ -1#_ := by
    intro all
    have ones := congrArg BitVec.toNat all
    rw [field] at ones
    exact ordinary.ne ones
  have least : BitVec.ofNat 11 exponent ≠ 0#_ := by
    intro none
    have zeros := congrArg BitVec.toNat none
    rw [field] at zeros
    exact some zeros
  have mantissa : (1#1 ++ BitVec.ofNat 52 m).toNat = m := by
    rw [toNat_append_one, BitVec.toNat_ofNat]
    omega
  simp only [UnpackedFloat.unpack, unpackExponent_packComponents, unpackMantissa_packComponents,
    unpackSign_packComponents, ofBitVec_toBitVec, if_neg special, if_neg least, finite.injEq]
  refine ⟨trivial, mantissa, ?_⟩
  change ((BitVec.ofNat 11 exponent).toNat : ℤ) - 1075 = exponent - 1075
  rw [field]

theorem unpack_subnormal (few : m < 2 ^ 52) :
    UnpackedFloat.unpack Format.binary64 (packComponents Format.binary64 s 0 (BitVec.ofNat 52 m)) =
      .finite s m (-1074) positive := by
  have field : (BitVec.ofNat 52 m).toNat = m := by
    rw [BitVec.toNat_ofNat]
    omega
  have some : BitVec.ofNat 52 m ≠ 0#_ := by
    intro none
    have zeros := congrArg BitVec.toNat none
    rw [field] at zeros
    exact positive.ne' zeros
  have special : (0 : BitVec 11) ≠ -1#_ := by decide
  have least : (0 : BitVec 11) = 0#_ := rfl
  simp only [UnpackedFloat.unpack, unpackExponent_packComponents, unpackMantissa_packComponents,
    unpackSign_packComponents, ofBitVec_toBitVec, if_neg special, if_pos least, dif_neg some,
    finite.injEq]
  exact ⟨trivial, field, by decide⟩

/-- A canonical number that fits comes back as it was packed. -/
theorem unpack_pack {u : UnpackedFloat} (canonical : Canonical u) (fits : Fits u) :
    UnpackedFloat.unpack Format.binary64 (UnpackedFloat.pack Format.binary64 u) = u := by
  cases u with
  | notANumber | infinity s => exact fits.elim
  | zero s =>
      simp only [UnpackedFloat.pack, packedZero, UnpackedFloat.unpack,
        unpackExponent_packComponents, unpackMantissa_packComponents, unpackSign_packComponents,
        ofBitVec_toBitVec]
      rfl
  | finite s m e positive =>
      obtain ⟨few, least, full⟩ := canonical
      have high : e < 972 := fits
      rw [pack_finite high]
      by_cases normal : 2 ^ 52 ≤ m
      · have low := (Nat.le_log2 positive.ne').mpr normal
        have below := (Nat.log2_lt positive.ne').mpr few
        have biased : ((e + 1075).toNat : ℤ) - 1075 = e := by omega
        rw [if_pos (by omega), unpack_normal (by omega) (by omega) normal few, biased]
      · have below := (Nat.log2_lt positive.ne').mpr (Nat.lt_of_not_le normal)
        obtain rfl := full.resolve_left normal
        rw [if_neg (by omega), unpack_subnormal (Nat.lt_of_not_le normal)]

theorem pack_unpack (finite : (UnpackedFloat.unpack Format.binary64 b).isFinite) :
    UnpackedFloat.pack Format.binary64 (UnpackedFloat.unpack Format.binary64 b) = b := by
  have fits := fits_of_isFinite_unpack finite
  have parts := packComponents_unpacked b
  have few : (unpackMantissa b).toNat < 2 ^ 52 := (unpackMantissa b).isLt
  simp only [UnpackedFloat.unpack] at finite fits ⊢
  split_ifs with special none least none
  · rw [if_pos special, if_pos none] at finite
    cases finite
  · rw [if_pos special, if_neg none] at finite
    cases finite
  · rw [least, none] at parts
    exact parts
  · have digits : (unpackMantissa b).toNat.log2 ≠ 52 := by
      have below := (Nat.log2_lt (BitVec.toNat_ne_iff_ne.mpr none)).mpr few
      omega
    rw [if_neg special, if_pos least, dif_neg none] at fits
    rw [pack_finite fits, if_neg digits, BitVec.ofNat_toNat, BitVec.setWidth_eq]
    rw [least] at parts
    exact parts
  · have digits := toNat_append_one (unpackMantissa b)
    have log : (1#1 ++ unpackMantissa b).toNat.log2 = 52 := by
      have some : (1#1 ++ unpackMantissa b).toNat ≠ 0 := by omega
      have low := (Nat.le_log2 some).mpr (digits ▸ Nat.le_add_right _ _)
      have below := (Nat.log2_lt some (k := 53)).mpr (by omega)
      omega
    have mantissa : BitVec.ofNat 52 (1#1 ++ unpackMantissa b).toNat = unpackMantissa b := by
      apply BitVec.eq_of_toNat_eq
      rw [digits, BitVec.toNat_ofNat]
      omega
    have exponent : BitVec.ofNat 11 (((unpackExponent b).toNat : ℤ) - (1023 + 52) + 1075).toNat =
        unpackExponent b := by
      rw [show (1023 + 52 : ℤ) = 1075 from rfl, Int.sub_add_cancel, Int.toNat_natCast]
      exact BitVec.ofNat_toNat 11 _
    rw [if_neg special, if_neg least] at fits
    rw [pack_finite fits, if_pos log, mantissa]
    exact (congrArg (packComponents Format.binary64 _ · _) exponent).trans parts

end Binary64

end TouchGesture.Double
