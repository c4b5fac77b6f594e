import TouchGesture.Proofs.Double.Symmetry
import TouchGesture.Proofs.Gesture.Frames
import TouchGesture.Proofs.Point.Plane

/-! Points that are computed with doubles: each is nearest to an exact one, and which of them are
equal. -/

namespace TouchGesture

theorem Double.exact_delta_of_eq {s e : Float} {n : UInt32} (steps : n ≠ 0)
    (delta : ((e - s) / n.toFloat).isFinite) (same : exact e = exact s) :
    exact ((e - s) / n.toFloat) = 0 := by
  rw [exact_delta steps delta, same, sub_self, rounded_zero, zero_div, rounded_zero]

namespace Point

variable {p q c v w s e d m : Position} {r : Point ℚ} {k : Float}

theorem same_iff : p.same q ↔ p.x == q.x ∧ p.y == q.y := Bool.and_eq_true_iff

theorem exact_of_same (same : p.same q) : p.exact = q.exact := by
  obtain ⟨x, y⟩ := same_iff.mp same
  exact Point.ext (Double.exact_eq_of_beq x) (Double.exact_eq_of_beq y)

theorem exact_neg (p : Position) : (-p).exact = -p.exact :=
  Point.ext (Double.exact_neg p.x) (Double.exact_neg p.y)

def Numeric (p : Position) : Prop := ¬ p.x.isNaN ∧ ¬ p.y.isNaN

theorem same_refl (numeric : p.Numeric) : p.same p :=
  same_iff.mpr ⟨Double.beq_refl numeric.1, Double.beq_refl numeric.2⟩

def Nearest (p : Position) (r : Point ℚ) : Prop :=
  Double.Nearest p.x r.x ∧ Double.Nearest p.y r.y

namespace Nearest

theorem same (left : Nearest p r) (right : Nearest q r) : p.same q :=
  same_iff.mpr ⟨left.1.beq right.1, left.2.beq right.2⟩

theorem neg (nearest : Nearest p r) : Nearest (-p) (-r) := ⟨nearest.1.neg, nearest.2.neg⟩

theorem numeric (nearest : Nearest p r) : p.Numeric :=
  ⟨nearest.1.not_isNaN, nearest.2.not_isNaN⟩

end Nearest

theorem nearest_add (left : p.isFinite) (right : q.isFinite) :
    Nearest (p + q) (p.exact + q.exact) := by
  rw [isFinite_iff] at left right
  exact ⟨Double.nearest_add left.1 right.1, Double.nearest_add left.2 right.2⟩

theorem nearest_sub (left : p.isFinite) (right : q.isFinite) :
    Nearest (p - q) (p.exact - q.exact) := by
  rw [isFinite_iff] at left right
  exact ⟨Double.nearest_sub left.1 right.1, Double.nearest_sub left.2 right.2⟩

theorem nearest_mul (left : p.isFinite) (right : k.isFinite) :
    Nearest (p * k) (p.exact * Double.exact k) := by
  rw [isFinite_iff] at left
  exact ⟨Double.nearest_mul left.1 right, Double.nearest_mul left.2 right⟩

theorem exact_delta_of_same {n : UInt32} (steps : n ≠ 0) (delta : ((e - s) / n.toFloat).isFinite)
    (same : e.same s) : ((e - s) / n.toFloat).exact = 0 := by
  have equal := exact_of_same same
  rw [isFinite_iff] at delta
  exact Point.ext (Double.exact_delta_of_eq steps delta.1 (congrArg Point.x equal))
    (Double.exact_delta_of_eq steps delta.2 (congrArg Point.y equal))

theorem same_of_no_delta (numeric : s.Numeric) (delta : d.isFinite) (none : d.exact = 0)
    (count : k.isFinite) :
    (s + d * k).same s := by
  rw [isFinite_iff] at delta
  exact same_iff.mpr
    ⟨Double.add_mul_beq numeric.1 delta.1 (congrArg Point.x none) count,
      Double.add_mul_beq numeric.2 delta.2 (congrArg Point.y none) count⟩

theorem add_neg_mul (delta : d.isFinite) (count : k.isFinite) : s + -d * k = s - d * k := by
  rw [isFinite_iff] at delta
  exact Point.ext (Double.add_neg_mul_eq_sub delta.1 count)
    (Double.add_neg_mul_eq_sub delta.2 count)

theorem same_neg_of_opposite (left : p.isFinite) (right : q.isFinite)
    (opposite : q.exact = -p.exact) (numeric : m.Numeric) : (q - m).same (-(p + m)) := by
  rw [isFinite_iff] at left right
  exact same_iff.mpr
    ⟨Double.sub_beq_neg_add left.1 right.1 (congrArg Point.x opposite) numeric.1,
      Double.sub_beq_neg_add left.2 right.2 (congrArg Point.y opposite) numeric.2⟩

section Origin

variable (center : c.isFinite) (vector : v.isFinite) (origin : c.exact = 0)
include center vector origin

theorem same_neg_about_origin : (c + v).same (-(c - v)) := by
  have near := nearest_add center vector
  have far := (nearest_sub center vector).neg
  rw [origin, zero_add] at near
  rw [origin, zero_sub, neg_neg] at far
  exact near.same far

theorem isFinite_add_about_origin : (c + v).isFinite := by
  rw [isFinite_add_iff center vector, origin, zero_add]
  exact ⟨Double.exact_bounded v.x, Double.exact_bounded v.y⟩

end Origin

theorem exact_eq_zero_of_origin (centered : c.same origin) : c.exact = 0 := by
  have zero : Double.exact 0 = 0 := by decide +kernel
  rw [exact_of_same centered]
  exact Point.ext zero zero

end Point

end TouchGesture
