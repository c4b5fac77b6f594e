import TouchGesture.Proofs.Double.Symmetry

/-! The double that a magnitude is rounded to under a sign: from the limit on it is infinity, and
zero below half of the least double. -/

namespace TouchGesture.Double

open Float.Model Float.Model.UnpackedFloat

def ofMagnitude (s : Sign) (v : ℚ) : Float := .ofModel (Float.Model.pack (nearestDouble s v))

variable {x : Float} {v : ℚ} {s : Sign}

theorem isFinite_ofMagnitude_iff (s : Sign) (nonneg : 0 ≤ v) :
    (ofMagnitude s v).isFinite ↔ v < limit :=
  isFinite_pack.trans (fits_nearestDouble_iff s nonneg)

theorem neg_ofMagnitude (s : Sign) (nonneg : 0 ≤ v) : -ofMagnitude s v = ofMagnitude (-s) v := by
  rw [ofMagnitude, neg_ofModel_pack (canonical_nearestDouble s nonneg), nearestDouble, neg_carried]
  rfl

theorem nearest_ofMagnitude (s : Sign) (nonneg : 0 ≤ v) :
    Nearest (ofMagnitude s v) (factor s * v) :=
  ⟨_, isNearest_nearestDouble s nonneg, rfl⟩

theorem Nearest.eq_ofMagnitude (nearest : Nearest x v) (positive : 0 < v) :
    x = ofMagnitude .positive v := by
  have self := nearest_ofMagnitude .positive positive.le
  rw [factor, one_mul] at self
  exact nearest.unique self positive.ne'

theorem ofMagnitude_of_limit_le (large : limit ≤ v) :
    ofMagnitude s v = .ofModel (Float.Model.pack (.infinity s)) := by
  have nonneg : 0 ≤ v := limit_pos.le.trans large
  have out : ¬ Fits (nearestDouble s v) := mt (fits_nearestDouble_iff s nonneg).mp large.not_gt
  have packed : Float.Model.pack (nearestDouble s v) = Float.Model.pack (.infinity s) := by
    simp only [Float.Model.pack, nearestDouble, pack_of_not_fits out]
  rw [ofMagnitude, packed]

theorem ofMagnitude_of_lt_least (nonneg : 0 ≤ v) (small : v < 2 ^ (-1075 : ℤ)) :
    ofMagnitude s v = .ofModel (Float.Model.pack (.zero s)) := by
  have units : v / 2 ^ unit v < 1 / 2 :=
    calc v / 2 ^ unit v
        ≤ v / 2 ^ (-1074 : ℤ) :=
          div_le_div_of_nonneg_left nonneg (by positivity)
            (zpow_le_zpow_right₀ (by norm_num) (least_unit v))
      _ < 2 ^ (-1075 : ℤ) / 2 ^ (-1074 : ℤ) := div_lt_div_of_pos_right small (by positivity)
      _ = 1 / 2 := by
          rw [← zpow_sub₀ (by norm_num)]
          norm_num
  have few : roundEven (v / 2 ^ unit v) = 0 := by
    have whole : ⌊v / 2 ^ unit v⌋₊ = 0 := Nat.floor_eq_zero.mpr (by linarith)
    rw [roundEven, whole, Nat.cast_zero, sub_zero, if_pos (by linarith)]
  rw [ofMagnitude, nearestDouble, few, carried, dif_pos rfl]

end TouchGesture.Double
