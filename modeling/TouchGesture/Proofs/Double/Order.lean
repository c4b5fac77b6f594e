import Mathlib.Order.Compare

/-! The order of doubles, in which not-a-number has no place. -/

namespace TouchGesture.Double

open Float.Model

theorem compare_swap (a b : UnpackedFloat) : b.compare a = (a.compare b).map Ordering.swap := by
  cases a with
  | notANumber => cases b <;> rfl
  | infinity s =>
      cases b with
      | infinity t => cases s <;> cases t <;> rfl
      | _ => cases s <;> rfl
  | zero s =>
      cases b with
      | infinity t => cases t <;> rfl
      | finite t => cases t <;> rfl
      | _ => rfl
  | finite s m e =>
      cases b with
      | notANumber => rfl
      | infinity t => cases t <;> rfl
      | zero t => cases s <;> rfl
      | finite t n f =>
          have exponents : compare f e = (compare e f).swap := Std.OrientedOrd.eq_swap
          have mantissas : compare n m = (compare m n).swap := Std.OrientedOrd.eq_swap
          have swapped : (compare f e).then (compare n m) =
              ((compare e f).then (compare m n)).swap := by
            rw [exponents, mantissas, Ordering.swap_then]
          cases s <;> cases t
          · exact congrArg (fun o : Ordering => some o.swap) swapped
          · rfl
          · rfl
          · exact congrArg some swapped

theorem lt_iff {x y : Float} : x < y ↔ x.toModel.unpack.compare y.toModel.unpack = some .lt := by
  change x.lt y = true ↔ _
  simp only [Float.lt, decide_eq_true_eq]
  change x.toModel.unpack.lt y.toModel.unpack = true ↔ _
  simp [UnpackedFloat.lt]

theorem le_iff {x y : Float} :
    x ≤ y ↔ (x.toModel.unpack.compare y.toModel.unpack).any Ordering.isLE := by
  change x.le y = true ↔ _
  simp only [Float.le, decide_eq_true_eq]
  rfl

theorem not_lt_of_le {x y : Float} (below : x ≤ y) : ¬ y < x := by
  intro above
  rw [le_iff] at below
  rw [lt_iff, compare_swap] at above
  cases order : x.toModel.unpack.compare y.toModel.unpack with
  | none => simp [order] at below
  | some o => cases o <;> simp [order] at below above

theorem lt_irrefl (x : Float) : ¬ x < x := by
  intro less
  have swapped := compare_swap x.toModel.unpack x.toModel.unpack
  rw [lt_iff] at less
  simp [less] at swapped

theorem isSome_compare {a b : UnpackedFloat} (left : ¬ a.isNaN) (right : ¬ b.isNaN) :
    (a.compare b).isSome := by
  cases a with
  | notANumber => exact absurd rfl left
  | infinity s =>
      cases b with
      | notANumber => exact absurd rfl right
      | infinity t => rfl
      | _ => cases s <;> rfl
  | zero s =>
      cases b with
      | notANumber => exact absurd rfl right
      | infinity t => cases t <;> rfl
      | zero t => rfl
      | finite t => cases t <;> rfl
  | finite s m e =>
      cases b with
      | notANumber => exact absurd rfl right
      | infinity t => cases t <;> rfl
      | zero t => cases s <;> rfl
      | finite t n f => cases s <;> cases t <;> rfl

theorem le_of_not_lt {x y : Float} (left : ¬ x.isNaN) (right : ¬ y.isNaN)
    (above : ¬ x < y) : y ≤ x := by
  rw [lt_iff] at above
  rw [le_iff, compare_swap]
  obtain ⟨o, order⟩ := Option.isSome_iff_exists.mp (isSome_compare left right)
  rw [order] at above ⊢
  cases o with
  | lt => exact absurd rfl above
  | eq => rfl
  | gt => rfl

theorem le_refl {x : Float} (number : ¬ x.isNaN) : x ≤ x :=
  le_of_not_lt number number (lt_irrefl x)

theorem le_of_lt {x y : Float} (less : x < y) : x ≤ y := by
  rw [lt_iff] at less
  rw [le_iff, less]
  rfl

/-- What is not a number is at most nothing, and nothing is at most that. -/
theorem not_isNaN_of_le {x y : Float} (below : x ≤ y) : ¬ x.isNaN ∧ ¬ y.isNaN := by
  change ¬ x.toModel.unpack.isNaN ∧ ¬ y.toModel.unpack.isNaN
  rw [le_iff] at below
  generalize x.toModel.unpack = a at below ⊢
  generalize y.toModel.unpack = b at below ⊢
  constructor
  · rintro nan
    cases a <;> cases nan
    cases below
  · rintro nan
    cases b <;> cases nan
    cases a <;> cases below

end TouchGesture.Double
