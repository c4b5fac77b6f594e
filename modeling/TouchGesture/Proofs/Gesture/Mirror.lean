import TouchGesture.Proofs.Gesture.Tracks
import TouchGesture.Proofs.Point.Nearest

/-! The two fingers of a pinch, computed with doubles: they move by opposite ways, about the origin
they are mirrored, and a pinch that goes nowhere keeps both in place. -/

namespace TouchGesture

namespace Point

def Mirrored (points : List Position) : Prop := ∃ a b, points = [a, b] ∧ b.same (-a)

def AllSame (points others : List Position) : Prop :=
  List.Forall₂ (fun p q => p.same q) points others

theorem AllSame.getElem? {points others : List Position} (same : AllSame points others) {i : ℕ}
    {p : Position}
    (here : points[i]? = some p) : ∃ q, others[i]? = some q ∧ p.same q := by
  obtain ⟨inside, rfl⟩ := List.getElem?_eq_some_iff.mp here
  have inside' : i < others.length := List.Forall₂.length_eq same ▸ inside
  exact ⟨others[i], List.getElem?_eq_getElem inside', List.Forall₂.get same inside inside'⟩

end Point

theorem Plan.mem_stages {p : Plan Float} {points : List Position} (listed : points ∈ p.stages) :
    points = p.starts ∨ (∃ step, points = p.frame step) ∨ points = p.ends := by
  rw [stages, List.mem_cons, List.mem_append, List.mem_singleton] at listed
  rcases listed with start | frame | last
  · exact .inl start
  · obtain ⟨i, -, rfl⟩ := List.mem_map.mp frame
    exact .inr (.inl ⟨_, rfl⟩)
  · exact .inr (.inr last)

/-- Every touch of a plan that has a place is made where its finger is at some stage. -/
theorem Plan.place_of_mem_events {p : Plan Float} {e : TouchEvent} {q : Position}
    (member : e ∈ p.events) (placed : e.point? = some q) :
    ∃ points ∈ p.stages, points[e.finger.index.toNat]? = some q := by
  have own {touch : Finger → Position → TouchEvent} (marked : ∀ f a, (touch f a).finger = f)
      (located : ∀ f a, (touch f a).point? = some a) {points : List Position}
      (touched : e ∈ List.zipWith touch p.fingerNames points) :
        points[e.finger.index.toNat]? = some q := by
    obtain ⟨k, listed⟩ := List.mem_iff_getElem?.mp touched
    obtain ⟨f, a, named, here, rfl⟩ := List.getElem?_zipWith_eq_some.mp listed
    obtain ⟨inside, -⟩ := List.getElem?_eq_some_iff.mp named
    rw [p.length_fingerNames] at inside
    obtain rfl := Finger.getElem?_first named
    obtain rfl : a = q := Option.some.inj ((located _ a).symm.trans placed)
    have small : k < UInt32.size := Nat.lt_trans inside p.fingers.toNat_lt
    have index : (UInt32.ofNat k).toNat = k := UInt32.toNat_ofNat_of_lt small
    rw [marked, index]
    exact here
  rw [events_eq, List.mem_append, List.mem_append] at member
  rcases member with (down | moved) | up
  · exact ⟨p.starts, List.mem_cons_self, own (fun _ _ => rfl) (fun _ _ => rfl) down⟩
  · obtain ⟨points, listed, touched⟩ := List.mem_flatMap.mp moved
    exact ⟨points, List.mem_cons_of_mem _ listed, own (fun _ _ => rfl) (fun _ _ => rfl) touched⟩
  · obtain ⟨f, -, rfl⟩ := List.mem_map.mp up
    cases placed

namespace Pinch

variable {g : Pinch Float} {p : Plan Float}

theorem starts_eq (made : g.plan = .ok p) : p.starts = g.startPoints := by
  obtain ⟨-, -, -, -, -, -, rfl⟩ := Pinch.plan_eq_ok.mp made
  rfl

theorem ends_eq (made : g.plan = .ok p) : p.ends = g.endPoints := by
  obtain ⟨-, -, -, -, -, -, rfl⟩ := Pinch.plan_eq_ok.mp made
  rfl

theorem frame_eq (made : g.plan = .ok p) (step : UInt32) :
    p.frame step = [(g.center - g.vectorStart) + g.delta * Double.ordinal step,
      (g.center + g.vectorStart) + -g.delta * Double.ordinal step] := by
  obtain ⟨-, -, -, -, -, -, rfl⟩ := Pinch.plan_eq_ok.mp made
  rfl

/-- A pinch between equal vectors touches the screen in one place with each finger, though the place
of the second may be infinite. -/
theorem stationary_of_same (made : g.plan = .ok p) (null : g.vectorStart.same g.vectorEnd) :
    (∀ step, Point.AllSame (p.frame step) p.starts) ∧ Point.AllSame p.ends p.starts ∧
      ∀ e ∈ p.events, ∀ q, e.point? = some q →
        ∃ s, p.starts[e.finger.index.toNat]? = some s ∧ q.same s := by
  obtain ⟨steps, center, start, last, delta, opposite, -⟩ := Pinch.plan_eq_ok.mp made
  have equal : g.vectorStart.exact = g.vectorEnd.exact := Point.exact_of_same null
  have first := Point.nearest_sub center start
  have second := Point.nearest_add center start
  have first' := Point.nearest_sub center last
  have second' := Point.nearest_add center last
  rw [← equal] at first' second'
  have none : g.delta.exact = 0 := Point.exact_delta_of_same steps delta (first'.same first)
  have none' : (-g.delta).exact = 0 := by rw [Point.exact_neg, none, neg_zero]
  have begun : Point.AllSame p.starts p.starts := by
    rw [starts_eq made]
    exact .cons (Point.same_refl first.numeric) (.cons (Point.same_refl second.numeric) .nil)
  have still (step : UInt32) : Point.AllSame (p.frame step) p.starts := by
    have count := Double.isFinite_ordinal step
    rw [frame_eq made, starts_eq made]
    exact .cons (Point.same_of_no_delta first.numeric delta none count)
      (.cons (Point.same_of_no_delta second.numeric opposite none' count) .nil)
  have ended : Point.AllSame p.ends p.starts := by
    rw [starts_eq made, ends_eq made]
    exact .cons (first'.same first) (.cons (second'.same second) .nil)
  refine ⟨still, ended, ?_⟩
  intro e member q placed
  obtain ⟨points, listed, here⟩ := Plan.place_of_mem_events member placed
  have same : Point.AllSame points p.starts := by
    rcases Plan.mem_stages listed with rfl | ⟨step, rfl⟩ | rfl
    · exact begun
    · exact still step
    · exact ended
  exact same.getElem? here

/-- The second finger is put at infinity, and the zeros of the vectors have different signs. -/
theorem stationary_of_same_overflowing :
    ∃ p : Plan Float,
      (⟨⟨1e308, 0⟩, ⟨1e308, 0⟩, ⟨1e308, -0.0⟩, 3, .ofMilliseconds 5⟩ :
        Pinch Float).plan = .ok p ∧
      (⟨1e308, 0⟩ : Position).same ⟨1e308, -0.0⟩ ∧
      (∀ step, Point.AllSame (p.frame step) p.starts) ∧ Point.AllSame p.ends p.starts ∧
      ∀ e ∈ p.events, ∀ q, e.point? = some q →
        ∃ s, p.starts[e.finger.index.toNat]? = some s ∧ q.same s := by
  have made : (⟨⟨1e308, 0⟩, ⟨1e308, 0⟩, ⟨1e308, -0.0⟩, 3, .ofMilliseconds 5⟩ :
      Pinch Float).plan = .ok _ :=
    Pinch.plan_eq_ok.mpr ⟨by decide, by decide +kernel, by decide +kernel, by decide +kernel,
      by decide +kernel, by decide +kernel, rfl⟩
  have null : (⟨1e308, 0⟩ : Position).same ⟨1e308, -0.0⟩ := by decide +kernel
  exact ⟨_, made, null, stationary_of_same made null⟩

/-- The second finger goes by the way of the first with the other sign. About the origin it is
always on the other side, as far as doubles can tell; both may be infinite. -/
theorem fingers_mirrored (made : g.plan = .ok p) :
    (∃ a b d, p.starts = [a, b] ∧ p.deltas = [d, -d] ∧
      ∀ step, p.frame step = [a + d * Double.ordinal step, b - d * Double.ordinal step]) ∧
    (g.center.same Point.origin →
      (∀ points ∈ p.stages, Point.Mirrored points) ∧
      ∀ step, Point.Mirrored (p.frame step)) := by
  obtain ⟨-, center, start, last, delta, -, planned⟩ := Pinch.plan_eq_ok.mp made
  have deltas : p.deltas = [g.delta, -g.delta] := congrArg Plan.deltas planned
  have frames (step : UInt32) :
      p.frame step = [(g.center - g.vectorStart) + g.delta * Double.ordinal step,
      (g.center + g.vectorStart) - g.delta * Double.ordinal step] := by
    rw [frame_eq made, Point.add_neg_mul delta (Double.isFinite_ordinal step)]
  refine ⟨⟨_, _, _, starts_eq made, deltas, frames⟩, fun centered => ?_⟩
  have origin : g.center.exact = 0 := Point.exact_eq_zero_of_origin centered
  have begun := Point.same_neg_about_origin center start origin
  have ended := Point.same_neg_about_origin center last origin
  have still (step : UInt32) : Point.Mirrored (p.frame step) := by
    have finite := (Point.isFinite_of_sub (Point.isFinite_of_div delta)).2
    have finite' := Point.isFinite_add_about_origin center start origin
    have opposite := Point.exact_of_same begun
    rw [Point.exact_neg] at opposite
    have way := (Point.nearest_mul delta (Double.isFinite_ordinal step)).numeric
    exact ⟨_, _, frames step, Point.same_neg_of_opposite finite finite' opposite way⟩
  refine ⟨fun points listed => ?_, still⟩
  rcases Plan.mem_stages listed with rfl | ⟨step, rfl⟩ | rfl
  · exact ⟨_, _, starts_eq made, begun⟩
  · exact still step
  · exact ⟨_, _, ends_eq made, ended⟩

theorem fingers_mirrored_about_origin :
    ∃ p : Plan Float, (⟨⟨0, -0.0⟩, ⟨10, 0⟩, ⟨50.1, 0.3⟩, 7, .ofMilliseconds 5⟩ :
      Pinch Float).plan = .ok p ∧
      (⟨0, -0.0⟩ : Position).same Point.origin ∧
      (∃ a b d, p.starts = [a, b] ∧ p.deltas = [d, -d] ∧
        ∀ step, p.frame step = [a + d * Double.ordinal step, b - d * Double.ordinal step]) ∧
      (∀ points ∈ p.stages, Point.Mirrored points) ∧
      ∀ step, Point.Mirrored (p.frame step) := by
  have made : (⟨⟨0, -0.0⟩, ⟨10, 0⟩, ⟨50.1, 0.3⟩, 7, .ofMilliseconds 5⟩ :
      Pinch Float).plan = .ok _ :=
    Pinch.plan_eq_ok.mpr ⟨by decide, by decide +kernel, by decide +kernel, by decide +kernel,
      by decide +kernel, by decide +kernel, rfl⟩
  have centered : (⟨0, -0.0⟩ : Position).same Point.origin := by decide +kernel
  obtain ⟨ways, sides⟩ := fingers_mirrored made
  exact ⟨_, made, centered, ways, sides centered⟩

end Pinch

end TouchGesture
