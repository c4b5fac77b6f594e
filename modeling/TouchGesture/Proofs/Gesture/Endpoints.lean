import TouchGesture.Proofs.Double.Finite
import TouchGesture.Proofs.Gesture.Plan

/-! Where a pinch puts its fingers down and where it puts them in the end. -/

namespace TouchGesture

namespace Point

def exact (p : Position) : Point ℚ := ⟨Double.exact p.x, Double.exact p.y⟩

def Within (q : Point ℚ) : Prop := |q.x| < Double.limit ∧ |q.y| < Double.limit

variable {p q : Position}

theorem isFinite_add_iff (left : p.isFinite) (right : q.isFinite) :
    (p + q).isFinite ↔ (exact p + exact q).Within := by
  rw [isFinite_iff] at left right ⊢
  exact and_congr (Double.isFinite_add_iff left.1 right.1) (Double.isFinite_add_iff left.2 right.2)

theorem isFinite_of_sub (finite : (p - q).isFinite) : p.isFinite ∧ q.isFinite := by
  rw [isFinite_iff] at finite ⊢
  rw [isFinite_iff]
  have x := Double.isFinite_of_sub finite.1
  have y := Double.isFinite_of_sub finite.2
  exact ⟨⟨x.1, y.1⟩, x.2, y.2⟩

theorem isFinite_of_div {k : Float} (finite : (p / k).isFinite) : p.isFinite := by
  rw [isFinite_iff] at finite ⊢
  exact ⟨Double.isFinite_of_div finite.1, Double.isFinite_of_div finite.2⟩

end Point

theorem filterMap_point_zipWith {α : Type} {touch : Finger → Point α → Touch α}
    (placed : ∀ f q, (touch f q).point? = some q) {fingers : List Finger}
    {points : List (Point α)} (enough : points.length ≤ fingers.length) :
    (List.zipWith touch fingers points).filterMap Touch.point? = points := by
  induction points generalizing fingers with
  | nil => cases fingers <;> rfl
  | cons q rest ih =>
      cases fingers with
      | nil => cases enough
      | cons f fingers =>
          have tail : rest.length ≤ fingers.length := Nat.le_of_succ_le_succ enough
          rw [List.zipWith_cons_cons, List.filterMap_cons_some (placed f q), ih tail]

theorem Plan.Aligned.points {p : Plan Float} (aligned : p.Aligned) :
    (p.downs ++ p.moves p.ends).filterMap Touch.point? = p.starts ++ p.ends := by
  have names : p.fingerNames.length = p.fingers.toNat := by
    simp [Plan.fingerNames, Finger.first]
  have starts : p.starts.length ≤ p.fingerNames.length := by
    rw [names, aligned.starts_length]
  have ends : p.ends.length ≤ p.fingerNames.length := by
    rw [names, aligned.ends_length]
  rw [List.filterMap_append, Plan.downs, Plan.moves,
    filterMap_point_zipWith (fun _ _ => rfl) starts, filterMap_point_zipWith (fun _ _ => rfl) ends]

/-- The delta of the first finger is checked, which keeps its own points finite. Those of the second
finger are finite exactly when both sums lie within the doubles. -/
theorem Pinch.plan_points_finite_iff {g : Pinch Float} {p : Plan Float} (made : g.plan = .ok p) :
    (p.downs ++ p.moves p.ends).filterMap Touch.point? = p.starts ++ p.ends ∧
      (∀ q ∈ p.starts.take 1 ++ p.ends.take 1, q.isFinite) ∧
      ((∀ q ∈ p.starts ++ p.ends, q.isFinite) ↔
        (g.center.exact + g.vectorStart.exact).Within ∧
          (g.center.exact + g.vectorEnd.exact).Within) := by
  have points := (g.plan_aligned made).points
  obtain ⟨-, center, vectorStart, vectorEnd, delta, -, rfl⟩ := Pinch.plan_eq_ok.mp made
  obtain ⟨firstEnd, firstStart⟩ := Point.isFinite_of_sub (Point.isFinite_of_div delta)
  have secondStart := Point.isFinite_add_iff center vectorStart
  have secondEnd := Point.isFinite_add_iff center vectorEnd
  refine ⟨points, ?_, ?_⟩
  · intro q listed
    simp only [Pinch.startPoints, Pinch.endPoints, List.take_succ_cons, List.take_zero,
      List.cons_append, List.nil_append, List.mem_cons, List.not_mem_nil, or_false] at listed
    rcases listed with rfl | rfl
    · exact firstStart
    · exact firstEnd
  · rw [← secondStart, ← secondEnd]
    constructor
    · intro finite
      constructor
      · exact finite _ (by simp [Pinch.startPoints])
      · exact finite _ (by simp [Pinch.endPoints])
    · intro second q listed
      simp only [Pinch.startPoints, Pinch.endPoints, List.cons_append, List.nil_append,
        List.mem_cons, List.not_mem_nil, or_false] at listed
      rcases listed with rfl | rfl | rfl | rfl
      · exact firstStart
      · exact second.1
      · exact firstEnd
      · exact second.2

theorem Pinch.plan_points_finite_iff_zoom :
    ∃ p : Plan Float,
      (⟨⟨300, 300⟩, ⟨100, 0⟩, ⟨200, 0.5⟩, 4, .ofMilliseconds 5⟩ :
        Pinch Float).plan = .ok p ∧
      (p.downs ++ p.moves p.ends).filterMap Touch.point? = p.starts ++ p.ends ∧
      (∀ q ∈ p.starts.take 1 ++ p.ends.take 1, q.isFinite) ∧
      ((∀ q ∈ p.starts ++ p.ends, q.isFinite) ↔
        (Point.exact ⟨300, 300⟩ + Point.exact ⟨100, 0⟩).Within ∧
          (Point.exact ⟨300, 300⟩ + Point.exact ⟨200, 0.5⟩).Within) := by
  have made : (⟨⟨300, 300⟩, ⟨100, 0⟩, ⟨200, 0.5⟩, 4, .ofMilliseconds 5⟩ :
      Pinch Float).plan = .ok _ :=
    Pinch.plan_eq_ok.mpr ⟨by decide, by decide +kernel, by decide +kernel, by decide +kernel,
      by decide +kernel, by decide +kernel, rfl⟩
  have finite := Pinch.plan_points_finite_iff made
  exact ⟨_, made, finite⟩

/-- The first finger starts at the origin, so that its delta is finite, and the second at twice the
center, which overflows. -/
theorem Pinch.plan_infinite_start :
    ∃ p : Plan Float,
      (⟨⟨1e308, 0⟩, ⟨1e308, 0⟩, ⟨0, 0⟩, 1, .ofMilliseconds 5⟩ :
        Pinch Float).plan = .ok p ∧
      ∃ q ∈ p.starts, ¬ q.isFinite := by
  have made : (⟨⟨1e308, 0⟩, ⟨1e308, 0⟩, ⟨0, 0⟩, 1, .ofMilliseconds 5⟩ :
      Pinch Float).plan = .ok _ :=
    Pinch.plan_eq_ok.mpr ⟨by decide, by decide +kernel, by decide +kernel, by decide +kernel,
      by decide +kernel, by decide +kernel, rfl⟩
  have overflow : ¬ (⟨1e308, 0⟩ + ⟨1e308, 0⟩ : Position).isFinite := by decide +kernel
  refine ⟨_, made, _, ?_, overflow⟩
  exact List.mem_cons_of_mem _ List.mem_cons_self

end TouchGesture
