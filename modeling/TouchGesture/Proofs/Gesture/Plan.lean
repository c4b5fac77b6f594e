import TouchGesture.Gesture.Plan

/-! When a plan is made, and the shape that every made plan has. -/

namespace TouchGesture

variable {α : Type}

/-- A plan has a step and a finger, and a start, an end and a delta for every finger. -/
structure Plan.Aligned (p : Plan α) : Prop where
  steps_ne : p.steps ≠ 0
  fingers_ne : p.fingers ≠ 0
  starts_length : p.starts.length = p.fingers.toNat
  ends_length : p.ends.length = p.fingers.toNat
  deltas_length : p.deltas.length = p.fingers.toNat

section Planners

variable [Coordinate α]

theorem Plan.Aligned.frame_length {p : Plan α} (aligned : p.Aligned) (step : UInt32) :
    (p.frame step).length = p.fingers.toNat := by
  rw [Plan.frame, List.length_zipWith, aligned.starts_length, aligned.deltas_length, Nat.min_self]

theorem Plan.length_frames {p : Plan α} : p.frames.length = p.steps.toNat := by
  rw [Plan.frames, List.length_map, List.length_range]

theorem Plan.Aligned.length_of_mem_frames {p : Plan α} (aligned : p.Aligned) :
    ∀ points ∈ p.frames, points.length = p.fingers.toNat := by
  intro points member
  obtain ⟨i, -, rfl⟩ := List.mem_map.mp member
  exact aligned.frame_length _

theorem guard_eq_ok {ε β : Type} {refused : Prop} [Decidable refused] {fault : ε}
    {rest : Except ε β} {b : β} :
    (if refused then .error fault else rest) = .ok b ↔ ¬ refused ∧ rest = .ok b := by
  by_cases refused : refused <;> simp [refused]

theorem guard_eq_error {ε β : Type} {refused : Prop} [Decidable refused] {fault f : ε}
    {rest : Except ε β} {other : Option ε}
    (same : ¬ refused → (rest = .error f ↔ other = some f)) :
    (if refused then .error fault else rest) = .error f ↔
      (if refused then some fault else other) = some f := by
  by_cases refused : refused
  · simp [refused]
  · simpa [refused] using same refused

theorem find_not_finite_eq_none (points : List (Point α)) :
    points.find? (fun q => !q.isFinite) = none ↔ ∀ q ∈ points, q.isFinite := by
  rw [List.find?_eq_none]
  simp only [Bool.not_eq_true', Bool.not_eq_false]

theorem Plan.build_eq_ok {starts ends deltas : List (Point α)} {steps : UInt32} {pause : Span}
    {p : Plan α} :
    Plan.build starts ends deltas steps pause = .ok p ↔
      starts.length < UInt32.size ∧ (∀ d ∈ deltas, d.isFinite) ∧
        p = ⟨starts, ends, deltas, UInt32.ofNat starts.length, steps, pause⟩ := by
  rw [Plan.build, guard_eq_ok, Nat.not_le, ← find_not_finite_eq_none]
  refine and_congr_right fun _ => ?_
  cases deltas.find? fun d => !d.isFinite with
  | some d => exact ⟨nofun, nofun⟩
  | none => exact ⟨fun made => ⟨rfl, (Except.ok.inj made).symm⟩,
      fun ⟨_, same⟩ => congrArg _ same.symm⟩

theorem Plan.build_cases {starts deltas : List (Point α)} (ends : List (Point α)) (steps : UInt32)
    (pause : Span) (few : starts.length < UInt32.size) :
    (∃ d ∈ deltas, ¬ d.isFinite ∧
      Plan.build starts ends deltas steps pause = .error (.overflow d)) ∨
      ∃ p, Plan.build starts ends deltas steps pause = .ok p := by
  rw [Plan.build, if_neg (Nat.not_le.mpr few)]
  cases found : deltas.find? fun d => !d.isFinite with
  | none => exact .inr ⟨_, rfl⟩
  | some d =>
      have infinite : ¬ d.isFinite := by simpa using List.find?_some found
      exact .inl ⟨d, List.mem_of_find?_eq_some found, infinite, rfl⟩

def Pinch.delta (g : Pinch α) : Point α :=
  ((g.center - g.vectorEnd) - (g.center - g.vectorStart)) / (Coordinate.ofCount g.steps : α)

theorem Pinch.plan_eq_ok {g : Pinch α} {p : Plan α} :
    g.plan = .ok p ↔
      g.steps ≠ 0 ∧ g.center.isFinite ∧ g.vectorStart.isFinite ∧ g.vectorEnd.isFinite ∧
        g.delta.isFinite ∧ (-g.delta).isFinite ∧
        p = ⟨g.startPoints, g.endPoints, [g.delta, -g.delta], 2, g.steps, g.pause⟩ := by
  have few : g.startPoints.length < UInt32.size := by
    change 2 < UInt32.size
    decide
  simp only [Pinch.plan, guard_eq_ok, Plan.build_eq_ok, Bool.not_eq_true', Bool.not_eq_false, few,
    true_and, List.forall_mem_cons, and_assoc]
  refine and_congr_right fun _ => and_congr_right fun _ => and_congr_right fun _ =>
    and_congr_right fun _ => and_congr_right fun _ => and_congr_right fun _ => ?_
  exact ⟨fun made => made.2, fun made => ⟨nofun, made⟩⟩

theorem Pinch.plan_cases {g : Pinch α} (center : g.center.isFinite)
    (start : g.vectorStart.isFinite) (last : g.vectorEnd.isFinite) :
    (g.steps = 0 ∧ g.plan = .error .noSteps) ∨
    (g.steps ≠ 0 ∧ ∃ d, g.plan = .error (.overflow d)) ∨ ∃ p, g.plan = .ok p := by
  by_cases none : g.steps = 0
  · exact .inl ⟨none, if_pos none⟩
  · have few : g.startPoints.length < UInt32.size := by
      change 2 < UInt32.size
      decide
    have same : g.plan = Plan.build g.startPoints g.endPoints
        [g.delta, -g.delta] g.steps g.pause := by
      rw [plan, if_neg none, center, start, last]
      rfl
    rw [same]
    rcases Plan.build_cases g.endPoints g.steps g.pause few with ⟨d, -, -, wide⟩ | planned
    · exact .inr (.inl ⟨none, d, wide⟩)
    · exact .inr (.inr planned)

def Paths.deltas (g : Paths α) : List (Point α) :=
  List.zipWith (fun s e => (e - s) / (Coordinate.ofCount g.steps : α)) g.starts g.ends

theorem Paths.plan_eq_ok {g : Paths α} {p : Plan α} :
    g.plan = .ok p ↔
      g.steps ≠ 0 ∧ g.starts ≠ [] ∧ g.starts.length < UInt32.size ∧
        g.starts.length = g.ends.length ∧ (∀ q ∈ g.starts ++ g.ends, q.isFinite) ∧
        (∀ d ∈ g.deltas, d.isFinite) ∧
        p = ⟨g.starts, g.ends, g.deltas, UInt32.ofNat g.starts.length, g.steps, g.pause⟩ := by
  simp only [Paths.plan, guard_eq_ok, List.isEmpty_iff, Nat.not_le, ne_eq, Decidable.not_not]
  refine and_congr_right fun _ => and_congr_right fun _ => and_congr_right fun few =>
    and_congr_right fun _ => ?_
  rw [← find_not_finite_eq_none (g.starts ++ g.ends)]
  cases (g.starts ++ g.ends).find? fun q => !q.isFinite with
  | some q => exact ⟨nofun, nofun⟩
  | none =>
      simp only [Plan.build_eq_ok, few, true_and]
      rfl

theorem Paths.plan_cases {g : Paths α} (some : g.starts ≠ [])
    (few : g.starts.length < UInt32.size) (counts : g.starts.length = g.ends.length)
    (finite : ∀ q ∈ g.starts ++ g.ends, q.isFinite) :
    (g.steps = 0 ∧ g.plan = .error .noSteps) ∨
    (g.steps ≠ 0 ∧ ∃ d ∈ g.deltas, ¬ d.isFinite ∧ g.plan = .error (.overflow d)) ∨
    ∃ p, g.plan = .ok p := by
  by_cases none : g.steps = 0
  · exact .inl ⟨none, if_pos none⟩
  · have same : g.plan = Plan.build g.starts g.ends g.deltas g.steps g.pause := by
      rw [plan, if_neg none, if_neg (mt List.isEmpty_iff.mp some), if_neg (Nat.not_le.mpr few),
        if_neg (not_not_intro counts), (find_not_finite_eq_none _).mpr finite]
      rfl
    rw [same]
    rcases Plan.build_cases g.ends g.steps g.pause few with far | planned
    · exact .inr (.inl ⟨none, far⟩)
    · exact .inr (.inr planned)

theorem Pinch.plan_aligned {g : Pinch α} {p : Plan α} (made : g.plan = .ok p) : p.Aligned := by
  obtain ⟨steps, -, -, -, -, -, rfl⟩ := Pinch.plan_eq_ok.mp made
  have two : (2 : UInt32) ≠ 0 := by decide
  exact ⟨steps, two, rfl, rfl, rfl⟩

theorem Paths.plan_aligned {g : Paths α} {p : Plan α} (made : g.plan = .ok p) : p.Aligned := by
  obtain ⟨steps, fingers, few, counts, -, -, rfl⟩ := Paths.plan_eq_ok.mp made
  have count : (UInt32.ofNat g.starts.length).toNat = g.starts.length :=
    UInt32.toNat_ofNat_of_lt few
  refine ⟨steps, ?_, count.symm, counts ▸ count.symm, ?_⟩
  · intro none
    apply fingers
    apply List.eq_nil_of_length_eq_zero
    rw [← count]
    exact congrArg UInt32.toNat none
  · rw [count]
    simp [Paths.deltas, counts]

end Planners

/-- Plans that a planner makes of a caller's request. -/
def Plan.Made (p : Plan Float) : Prop :=
  (∃ g : Pinch Float, g.plan = .ok p) ∨ ∃ g : Paths Float, g.plan = .ok p

theorem Plan.Made.aligned {p : Plan Float} (made : p.Made) : p.Aligned := by
  rcases made with ⟨g, made⟩ | ⟨g, made⟩
  · exact g.plan_aligned made
  · exact g.plan_aligned made

def Pinch.zoom : Pinch Float := ⟨⟨0, 0⟩, ⟨10, 0⟩, ⟨50, 0⟩, 4, .ofMilliseconds 5⟩

theorem Pinch.zoom_planned :
    zoom.plan = .ok ⟨zoom.startPoints, zoom.endPoints, [zoom.delta, -zoom.delta], 2, 4,
      .ofMilliseconds 5⟩ :=
  plan_eq_ok.mpr ⟨by decide, by decide, by decide, by decide, by decide +kernel,
    by decide +kernel,
    rfl⟩

end TouchGesture
