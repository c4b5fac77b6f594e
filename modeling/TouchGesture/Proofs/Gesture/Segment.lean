import Mathlib.Analysis.Convex.Segment
import Mathlib.Tactic.Module
import TouchGesture.Proofs.Gesture.Frames
import TouchGesture.Proofs.Point.Plane

/-! Plans over exact coordinates: every finger goes straight to its end by equal steps, and a pinch
makes the same plan as the paths of its two fingers. -/

namespace TouchGesture

namespace Plan

def share (p : Plan ℚ) (step : UInt32) : ℚ := (step.toNat + 1) / p.steps.toNat

/-- The places of a finger in the frames lie on the segment from its start to its end, each as far
from the one before. -/
structure Straight (p : Plan ℚ) (k : ℕ) (s e : Point ℚ) : Prop where
  frame : ∀ step, (p.frame step)[k]? = some (s + p.share step • (e - s))
  segment : ∀ step < p.steps, ∀ q, (p.frame step)[k]? = some q → q ∈ segment ℚ s e
  spacing : ∀ step < p.steps - 1, ∀ q q', (p.frame step)[k]? = some q →
    (p.frame (step + 1))[k]? = some q' → q' - q = (p.steps.toNat : ℚ)⁻¹ • (e - s)

variable {p : Plan ℚ} {k : ℕ} {s e : Point ℚ} {step : UInt32}

theorem share_nonneg (p : Plan ℚ) (step : UInt32) : 0 ≤ p.share step := by
  rw [share]
  positivity

theorem share_le_one (before : step < p.steps) : p.share step ≤ 1 := by
  have bound : step.toNat + 1 ≤ p.steps.toNat := UInt32.lt_iff_toNat_lt.mp before
  have positive : (0 : ℚ) < p.steps.toNat := by exact_mod_cast Nat.zero_lt_of_lt bound
  rw [share, div_le_one positive]
  exact_mod_cast bound

theorem share_last (steps : p.steps ≠ 0) : p.share (p.steps - 1) = 1 := by
  have last := Double.toNat_pred steps
  have whole : ((p.steps - 1).toNat : ℚ) + 1 = p.steps.toNat := by exact_mod_cast last
  have count : (p.steps.toNat : ℚ) ≠ 0 := by
    rw [← whole]
    positivity
  rw [share, whole, div_self count]

theorem share_next (before : step < p.steps - 1) :
    p.share (step + 1) - p.share step = (p.steps.toNat : ℚ)⁻¹ := by
  have below := UInt32.lt_iff_toNat_lt.mp before
  have next : (step + 1).toNat = step.toNat + 1 := by
    rw [UInt32.toNat_add]
    exact Nat.mod_eq_of_lt (Nat.lt_of_le_of_lt below (p.steps - 1).toNat_lt)
  rw [share, share, next, ← sub_div, div_eq_mul_inv]
  push_cast
  ring

theorem straight_of_delta (start : p.starts[k]? = some s)
    (delta : p.deltas[k]? = some ((e - s) / (p.steps.toNat : ℚ))) : p.Straight k s e := by
  have frame (step : UInt32) : (p.frame step)[k]? = some (s + p.share step • (e - s)) := by
    have ordinal : (Coordinate.ofCount step + Coordinate.ofCount 1 : ℚ) = step.toNat + 1 := rfl
    rw [Plan.frame, List.getElem?_zipWith_eq_some.mpr ⟨s, _, start, delta, rfl⟩, ordinal,
      Point.mul_eq_smul, Point.div_eq_smul, smul_smul, ← div_eq_mul_inv, share]
  refine ⟨frame, ?_, ?_⟩
  · intro step before q here
    obtain rfl := Option.some.inj ((frame step).symm.trans here)
    rw [segment_eq_image']
    exact ⟨p.share step, ⟨p.share_nonneg step, share_le_one before⟩, rfl⟩
  · intro step before q q' here there
    obtain rfl := Option.some.inj ((frame step).symm.trans here)
    obtain rfl := Option.some.inj ((frame (step + 1)).symm.trans there)
    rw [← share_next before]
    module

end Plan

theorem Paths.straight {g : Paths ℚ} {p : Plan ℚ} (made : g.plan = .ok p) {k : ℕ}
    (finger : k < g.starts.length) :
    ∃ s e, g.starts[k]? = some s ∧ g.ends[k]? = some e ∧ p.Straight k s e := by
  obtain ⟨-, -, -, counts, -, -, rfl⟩ := Paths.plan_eq_ok.mp made
  have start : g.starts[k]? = some g.starts[k] := List.getElem?_eq_getElem finger
  have finger' : k < g.ends.length := counts ▸ finger
  have last : g.ends[k]? = some g.ends[k] := List.getElem?_eq_getElem finger'
  have delta : g.deltas[k]? = some ((g.ends[k] - g.starts[k]) / (g.steps.toNat : ℚ)) :=
    List.getElem?_zipWith_eq_some.mpr ⟨_, _, start, last, rfl⟩
  exact ⟨_, _, start, last, Plan.straight_of_delta start delta⟩

theorem Paths.frame_last {g : Paths ℚ} {p : Plan ℚ} (made : g.plan = .ok p) :
    p.frame (p.steps - 1) = g.ends := by
  have aligned := g.plan_aligned made
  obtain ⟨-, -, -, counts, -, -, planned⟩ := Paths.plan_eq_ok.mp made
  have starts : p.starts = g.starts := congrArg Plan.starts planned
  have count : (p.frame (p.steps - 1)).length = g.starts.length := by
    rw [aligned.frame_length, ← starts, aligned.starts_length]
  apply List.ext_getElem?
  intro k
  by_cases finger : k < g.starts.length
  · obtain ⟨s, e, -, last, straight⟩ := Paths.straight made finger
    rw [straight.frame, Plan.share_last aligned.steps_ne, one_smul, add_sub_cancel, last]
  · have beyond : g.starts.length ≤ k := Nat.le_of_not_lt finger
    rw [List.getElem?_eq_none (count.trans_le beyond), List.getElem?_eq_none (counts ▸ beyond)]

/-- With exact coordinates it does not matter whether the second finger goes by a delta of its
own. -/
theorem Paths.plan_ofPinch (g : Pinch ℚ) : (Paths.ofPinch g).plan = g.plan := by
  by_cases none : g.steps = 0
  · rw [Paths.plan, Pinch.plan, if_pos none]
    exact if_pos none
  · have second : ((g.center + g.vectorEnd) - (g.center + g.vectorStart)) /
        (Coordinate.ofCount g.steps : ℚ) =
        -g.delta := by
      rw [Pinch.delta, Point.div_eq_smul, Point.div_eq_smul]
      module
    have deltas : (Paths.ofPinch g).deltas = [g.delta, -g.delta] := by
      rw [← second]
      rfl
    have few : (Paths.ofPinch g).starts.length < UInt32.size := by
      change 2 < UInt32.size
      decide
    have pinched := Pinch.plan_eq_ok.mpr ⟨none, rfl, rfl, rfl, rfl, rfl, rfl⟩
    rw [pinched]
    refine Paths.plan_eq_ok.mpr
      ⟨none, List.cons_ne_nil _ _, few, rfl, fun _ _ => rfl, fun _ _ => rfl, ?_⟩
    rw [deltas]
    rfl

theorem Pinch.frame_reflected {g : Pinch ℚ} {p : Plan ℚ} (made : g.plan = .ok p)
    (step : UInt32) :
    ∃ q, p.frame step = [q, q.reflectThrough g.center] := by
  obtain ⟨-, -, -, -, -, -, rfl⟩ := Pinch.plan_eq_ok.mp made
  have mirrored (m : ℚ) : (g.center + g.vectorStart) + -g.delta * m =
      ((g.center - g.vectorStart) + g.delta * m).reflectThrough g.center := by
    rw [Point.reflectThrough, Point.mul_eq_smul, Point.mul_eq_smul]
    module
  exact ⟨_, congrArg (fun q => [_, q]) (mirrored _)⟩

/-- Read over exact coordinates, every finger of a plan goes straight by equal steps and arrives
with the last of them. A pinch makes the plan of its two paths, and its fingers stay mirrored about
the center. -/
theorem exact_plans_straight :
    (∀ (g : Paths ℚ) (p : Plan ℚ), g.plan = .ok p →
      (∀ k < g.starts.length, ∃ s e, g.starts[k]? = some s ∧ g.ends[k]? = some e ∧
        p.Straight k s e) ∧
        p.frame (p.steps - 1) = g.ends) ∧
    ∀ g : Pinch ℚ, (Paths.ofPinch g).plan = g.plan ∧
      ∀ p, g.plan = .ok p → ∀ step, ∃ q, p.frame step = [q, q.reflectThrough g.center] := by
  constructor
  · intro g p made
    exact ⟨fun k finger => Paths.straight made finger, Paths.frame_last made⟩
  · intro g
    exact ⟨Paths.plan_ofPinch g, fun p made step => Pinch.frame_reflected made step⟩

theorem exact_plans_straight_zoom :
    ∃ (g : Pinch ℚ) (p : Plan ℚ),
      g = ⟨⟨3, 2⟩, ⟨1, 1 / 2⟩, ⟨-2, 1 / 3⟩, 7, .ofMilliseconds 5⟩ ∧
      g.plan = .ok p ∧ (Paths.ofPinch g).plan = .ok p ∧
      (∀ k < 2, ∃ s e, (Paths.ofPinch g).starts[k]? = some s ∧
        (Paths.ofPinch g).ends[k]? = some e ∧
        p.Straight k s e) ∧
      p.frame 6 = g.endPoints ∧
      ∀ step, ∃ q, p.frame step = [q, q.reflectThrough g.center] := by
  have made : (⟨⟨3, 2⟩, ⟨1, 1 / 2⟩, ⟨-2, 1 / 3⟩, 7, .ofMilliseconds 5⟩ :
      Pinch ℚ).plan = .ok _ :=
    Pinch.plan_eq_ok.mpr ⟨by decide, rfl, rfl, rfl, rfl, rfl, rfl⟩
  obtain ⟨paths, pinches⟩ := exact_plans_straight
  obtain ⟨same, mirrored⟩ :=
    pinches ⟨⟨3, 2⟩, ⟨1, 1 / 2⟩, ⟨-2, 1 / 3⟩, 7, .ofMilliseconds 5⟩
  obtain ⟨straight, last⟩ := paths _ _ (same.trans made)
  exact ⟨_, _, rfl, made, same.trans made, straight, last, mirrored _ made⟩

end TouchGesture
