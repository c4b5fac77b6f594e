import Mathlib.Algebra.Field.Rat
import Mathlib.Algebra.Module.Defs
import TouchGesture.Point

/-! Points with exact coordinates are the vectors of a plane, with the sums and multiples that paths
are computed with. -/

namespace TouchGesture

attribute [ext] Point

namespace Point

instance : Zero (Point ℚ) := ⟨⟨0, 0⟩⟩
instance : SMul ℚ (Point ℚ) := ⟨fun k p => ⟨k * p.x, k * p.y⟩⟩

instance : AddCommGroup (Point ℚ) where
  add_assoc _ _ _ := Point.ext (add_assoc _ _ _) (add_assoc _ _ _)
  zero_add _ := Point.ext (zero_add _) (zero_add _)
  add_zero _ := Point.ext (add_zero _) (add_zero _)
  neg_add_cancel _ := Point.ext (neg_add_cancel _) (neg_add_cancel _)
  add_comm _ _ := Point.ext (add_comm _ _) (add_comm _ _)
  sub_eq_add_neg _ _ := Point.ext (sub_eq_add_neg _ _) (sub_eq_add_neg _ _)
  nsmul := nsmulRec
  zsmul := zsmulRec

instance : Module ℚ (Point ℚ) where
  one_smul _ := Point.ext (one_mul _) (one_mul _)
  mul_smul _ _ _ := Point.ext (mul_assoc _ _ _) (mul_assoc _ _ _)
  smul_zero _ := Point.ext (mul_zero _) (mul_zero _)
  smul_add _ _ _ := Point.ext (mul_add _ _ _) (mul_add _ _ _)
  add_smul _ _ _ := Point.ext (add_mul _ _ _) (add_mul _ _ _)
  zero_smul _ := Point.ext (zero_mul _) (zero_mul _)

theorem mul_eq_smul (p : Point ℚ) (k : ℚ) : p * k = k • p :=
  Point.ext (mul_comm _ _) (mul_comm _ _)

theorem div_eq_smul (p : Point ℚ) (k : ℚ) : p / k = k⁻¹ • p :=
  Point.ext ((div_eq_mul_inv _ _).trans (mul_comm _ _)) ((div_eq_mul_inv _ _).trans (mul_comm _ _))

end Point

end TouchGesture
