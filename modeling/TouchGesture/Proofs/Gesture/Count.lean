import Mathlib.Algebra.Group.Nat.Defs
import TouchGesture.Proofs.Gesture.Landing

/-! How many touches a plan makes, and where 64 bits are too few to count them. -/

namespace TouchGesture

def Entry.touch? : Entry → Option TouchEvent
  | .touched e _ => some e
  | _ => none

theorem observes_touches : Observes Entry.touch? Act.touch? :=
  ⟨fun _ _ => rfl, fun _ => rfl, fun _ => rfl⟩

theorem touches_passed (acts : List Act) :
    (acts.flatMap Act.passed).filterMap Entry.touch? = acts.filterMap Act.touch? :=
  observes_touches.filterMap_passed acts

theorem Course.eq_completed {fingers : List Finger} {script : List Act} {trace : Trace}
    (course : Course fingers script trace (.ok ())) :
    trace = .looked false :: script.flatMap Act.passed := by
  cases course with
  | begun steps _ passage =>
      cases passage with
      | completed => rfl
      | cancelled done span lifts _ cut lifting => cases lifting

theorem Course.touches {p : Plan Float} {trace : Trace}
    (course : Course p.fingerNames p.script trace (.ok ())) :
    trace.filterMap Entry.touch? = p.events := by
  obtain rfl := course.eq_completed
  exact (touches_passed p.script).trans p.touches_script

namespace Plan

variable {p : Plan Float}

theorem Aligned.length_downs (aligned : p.Aligned) : p.downs.length = p.fingers.toNat := by
  rw [downs, List.length_zipWith, p.length_fingerNames, aligned.starts_length, Nat.min_self]

theorem length_moves {points : List Position} (counts : points.length = p.fingers.toNat) :
    (p.moves points).length = p.fingers.toNat := by
  rw [moves, List.length_zipWith, p.length_fingerNames, counts, Nat.min_self]

theorem length_ups : p.ups.length = p.fingers.toNat := by
  rw [ups, List.length_map, p.length_fingerNames]

theorem length_flatMap_moves {stages : List (List Position)}
    (counts : ∀ points ∈ stages, points.length = p.fingers.toNat) :
    (stages.flatMap p.moves).length = stages.length * p.fingers.toNat := by
  induction stages with
  | nil => rw [List.flatMap_nil, List.length_nil, List.length_nil, Nat.zero_mul]
  | cons points rest ih =>
      obtain ⟨first, later⟩ := List.forall_mem_cons.mp counts
      rw [List.flatMap_cons, List.length_append, length_moves first, ih later, List.length_cons,
        Nat.succ_mul, Nat.add_comm]

/-- Every finger goes down, is moved in every step and once to its end, and goes up. -/
theorem Aligned.length_events (aligned : p.Aligned) :
    p.events.length = p.fingers.toNat * (p.steps.toNat + 3) := by
  have framed := length_flatMap_moves aligned.length_of_mem_frames
  rw [length_frames] at framed
  rw [events, List.length_append, List.length_append, List.length_append, aligned.length_downs,
    framed, length_moves aligned.ends_length, length_ups, Nat.mul_comm p.steps.toNat, Nat.mul_add]
  omega

/-- The sum in the count never wraps; the product may. -/
theorem toNat_eventCount (p : Plan Float) :
    p.eventCount.toNat = p.fingers.toNat * (p.steps.toNat + 3) % 2 ^ 64 := by
  have steps := p.steps.toNat_lt
  have sum : (p.steps.toUInt64 + 3).toNat = p.steps.toNat + 3 := by
    rw [UInt64.toNat_add, UInt32.toNat_toUInt64]
    exact Nat.mod_eq_of_lt (Nat.lt_trans (Nat.add_lt_add_right steps 3) (by decide))
  rw [eventCount, UInt64.toNat_mul, UInt32.toNat_toUInt64, sum]

def Fullest (p : Plan Float) : Prop :=
  p.fingers.toNat = 2 ^ 32 - 1 ∧ p.steps.toNat = 2 ^ 32 - 1

theorem lt_of_not_fullest (room : ¬ p.Fullest) :
    p.fingers.toNat * (p.steps.toNat + 3) < 2 ^ 64 := by
  have fingers := p.fingers.toNat_lt
  have steps := p.steps.toNat_lt
  rw [Fullest] at room
  by_cases crowded : p.fingers.toNat = 2 ^ 32 - 1
  -- with one step less, the product is one below the square that it must not reach
  · have few : p.steps.toNat + 3 ≤ 2 ^ 32 + 1 := by omega
    calc
      p.fingers.toNat * (p.steps.toNat + 3) ≤ (2 ^ 32 - 1) * (2 ^ 32 + 1) := by
        rw [crowded]
        exact Nat.mul_le_mul_left _ few
      _ < 2 ^ 64 := by decide
  · have few : p.fingers.toNat ≤ 2 ^ 32 - 2 := by omega
    calc
      p.fingers.toNat * (p.steps.toNat + 3) ≤ (2 ^ 32 - 2) * (2 ^ 32 + 2) :=
        Nat.mul_le_mul few (by omega)
      _ < 2 ^ 64 := by decide

theorem Fullest.length_events (full : p.Fullest) (aligned : p.Aligned) :
    p.events.length = 2 ^ 64 + (2 ^ 32 - 2) := by
  obtain ⟨fingers, steps⟩ := full
  simp [aligned.length_events, fingers, steps]

theorem Fullest.toNat_eventCount (full : p.Fullest) : p.eventCount.toNat = 2 ^ 32 - 2 := by
  obtain ⟨fingers, steps⟩ := full
  simp [Plan.toNat_eventCount, fingers, steps]

end Plan

def Paths.resting (fingers : Nat) : Paths Float :=
  ⟨List.replicate fingers ⟨0, 0⟩, List.replicate fingers ⟨0, 0⟩, 4294967295,
    .ofMilliseconds 5⟩

theorem Paths.resting_plan {n : Nat} (some : n ≠ 0) (few : n < UInt32.size) :
    ∃ p, (resting n).plan = .ok p ∧ p.fingers.toNat = n ∧ p.steps.toNat = 2 ^ 32 - 1 := by
  have counts : (resting n).starts.length = n := List.length_replicate
  have small : (resting n).starts.length < UInt32.size := counts.symm ▸ few
  have deltas : (resting n).deltas =
      List.replicate n ((⟨0, 0⟩ - ⟨0, 0⟩ : Position) / (4294967295 : UInt32).toFloat) :=
    List.zipWith_replicate'
  have finite : ∀ q ∈ (resting n).starts ++ (resting n).ends, q.isFinite := by
    intro q member
    have origin : q = ⟨0, 0⟩ :=
      (List.mem_append.mp member).elim List.eq_of_mem_replicate List.eq_of_mem_replicate
    rw [origin]
    decide
  have steady : ∀ d ∈ (resting n).deltas, d.isFinite := by
    rw [deltas]
    intro d member
    rw [List.eq_of_mem_replicate member]
    decide +kernel
  have nonempty : (resting n).starts ≠ [] := by
    rw [← List.length_pos_iff, counts]
    exact Nat.pos_of_ne_zero some
  have steps : (4294967295 : UInt32) ≠ 0 := by decide
  have planned : (resting n).plan = .ok _ :=
    Paths.plan_eq_ok.mpr ⟨steps, nonempty, small, rfl, finite, steady, rfl⟩
  exact ⟨_, planned, (UInt32.toNat_ofNat_of_lt small).trans counts, rfl⟩

namespace Plan

variable {p : Plan Float}

/-- A made plan has a press, a move for every step, a move to its end and a lift of each finger, and
a run that goes through makes just these touches. Their count is right except for the plan with the
most fingers and the most steps, where the product wraps. -/
theorem events_counted (made : p.Made) :
    p.events.length = p.fingers.toNat * (p.steps.toNat + 3) ∧
      (¬ p.Fullest → p.events.length < 2 ^ 64 ∧ p.eventCount.toNat = p.events.length) ∧
      (p.Fullest → p.events.length = p.eventCount.toNat + 2 ^ 64) ∧
      ∀ {σ : Type} (r : Rig σ) (s : σ), ∃ trace ending t,
        (r.traced.execute p).on (s, []) = (ending, t, trace) ∧
        (r.execute p).on s = (ending, t) ∧
        (ending = .ok () → trace.filterMap Entry.touch? = p.events) := by
  have total := made.aligned.length_events
  refine ⟨total, fun room => ?_, fun full => ?_, fun r s => ?_⟩
  · rw [total, toNat_eventCount]
    have fits := lt_of_not_fullest room
    exact ⟨fits, Nat.mod_eq_of_lt fits⟩
  · have many := full.length_events made.aligned
    have few := full.toNat_eventCount
    omega
  · obtain ⟨trace, ending, t, record, run, course⟩ := r.execute_traced p s
    refine ⟨trace, ending, t, record, run, ?_⟩
    rintro rfl
    exact course.touches

/-- With one finger less than the fullest plan has, the count stays four below what wraps. -/
theorem events_counted_brimful :
    ∃ p : Plan Float, p.Made ∧ ¬ p.Fullest ∧ p.events.length = 2 ^ 64 - 4 ∧
      p.eventCount.toNat = 2 ^ 64 - 4 ∧
      ∀ {σ : Type} (r : Rig σ) (s : σ), ∃ trace ending t,
        (r.traced.execute p).on (s, []) = (ending, t, trace) ∧
        (r.execute p).on s = (ending, t) ∧
        (ending = .ok () → trace.filterMap Entry.touch? = p.events) := by
  obtain ⟨p, planned, fingers, steps⟩ :=
    Paths.resting_plan (n := 2 ^ 32 - 2) (by decide) (by decide)
  have made : p.Made := .inr ⟨_, planned⟩
  have room : ¬ p.Fullest := by
    rintro ⟨most, -⟩
    omega
  obtain ⟨total, counted, -, runs⟩ := events_counted made
  have same := (counted room).2
  have size : p.events.length = 2 ^ 64 - 4 := by simp [total, fingers, steps]
  exact ⟨p, made, room, size, same.trans size, runs⟩

theorem eventCount_wraps :
    ∃ p, (Paths.resting (2 ^ 32 - 1)).plan = .ok p ∧ p.events.length = 2 ^ 64 + (2 ^ 32 - 2) ∧
      p.eventCount.toNat = 2 ^ 32 - 2 := by
  obtain ⟨p, planned, fingers, steps⟩ :=
    Paths.resting_plan (n := 2 ^ 32 - 1) (by decide) (by decide)
  have full : p.Fullest := ⟨fingers, steps⟩
  exact ⟨p, planned, full.length_events (Paths.plan_aligned planned), full.toNat_eventCount⟩

end Plan

end TouchGesture
