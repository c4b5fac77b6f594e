import TouchGesture.Json.Gesture
import TouchGesture.Proofs.Gesture.Plan
import TouchGesture.Proofs.Json.Touch

/-! Pinches and paths in JSON. What is asked for is read with the same counts, steps and pause; the
coordinates are the same where their digits are few, and then so is the plan. -/

namespace TouchGesture

open Json

namespace Span

variable (s : Span)

theorem seconds_lt : s.seconds < UInt64.size :=
  Nat.div_lt_of_lt_mul (Nat.mul_comm _ _ ▸ s.bounded)

theorem subsecond_lt : s.subsecond < UInt32.size :=
  Nat.lt_trans (Nat.mod_lt _ (by norm_num)) (by norm_num [UInt32.size])

theorem ofParts_parts : ofParts (.ofNat s.seconds) (.ofNat s.subsecond) = .ok s := by
  have whole : 1000000000 * (UInt64.ofNat s.seconds).toNat + (UInt32.ofNat s.subsecond).toNat =
      s.nanoseconds := by
    rw [UInt64.toNat_ofNat_of_lt' s.seconds_lt, UInt32.toNat_ofNat_of_lt' s.subsecond_lt]
    exact Nat.div_add_mod ..
  have parts : ofParts? (.ofNat s.seconds) (.ofNat s.subsecond) = some s := by
    rw [ofParts?, dif_pos (whole ▸ s.bounded)]
    exact congrArg some (by simp only [whole])
  rw [ofParts, parts]

theorem verbatim_names : ∀ name ∈ ["secs", "nanos"], Verbatim name := by
  simp [Verbatim, isVerbatim]

theorem tells : Tells ofJson s.toJson s := by
  have first := tells_word64 (.ofNat s.seconds)
  have second := tells_word32 (.ofNat s.subsecond)
  rw [UInt64.toNat_ofNat_of_lt' s.seconds_lt] at first
  rw [UInt32.toNat_ofNat_of_lt' s.subsecond_lt] at second
  constructor
  · apply writable_record [("secs", _), ("nanos", _)] verbatim_names
    simpa using ⟨first.writable, second.writable⟩
  · simp only [toJson, record, ofJson,
      foldFields_record [("secs", _), ("nanos", _)] verbatim_names, List.foldlM_cons,
      List.foldlM_nil, first.means, second.means]
    exact s.ofParts_parts

end Span

def PlanFault.IsOverflow {α : Type} (f : PlanFault α) : Prop := ∃ d, f = .overflow d

namespace Pinch

variable {g told : Pinch Float}

def vectors (g : Pinch Float) : List Position := [g.center, g.vectorStart, g.vectorEnd]

def coordinates (g : Pinch Float) : List Float := g.vectors.flatMap Point.coordinates

theorem ext_vectors (vectors : told.vectors = g.vectors) (steps : told.steps = g.steps)
    (pause : told.pause = g.pause) : told = g := by
  cases told
  cases g
  simp_all [Pinch.vectors]

structure Reread (g told : Pinch Float) : Prop where
  vectors : List.Forall₂ Point.Reread g.vectors told.vectors
  steps : told.steps = g.steps
  pause : told.pause = g.pause

theorem exists_reread (finite : ∀ p ∈ g.vectors, p.isFinite) : ∃ told, Reread g told := by
  simp only [vectors, List.forall_mem_cons] at finite
  obtain ⟨center, first⟩ := Point.exists_reread finite.1
  obtain ⟨start, second⟩ := Point.exists_reread finite.2.1
  obtain ⟨last, third⟩ := Point.exists_reread finite.2.2.1
  exact ⟨⟨center, start, last, g.steps, g.pause⟩,
    .cons first (.cons second (.cons third .nil)), rfl, rfl⟩

theorem Reread.eq_iff (again : Reread g told) : told = g ↔
    ∀ x ∈ g.coordinates, reread? x = some x := by
  rw [coordinates, ← Point.forall_reread_eq_iff again.vectors]
  constructor
  · intro same
    rw [same]
  · intro vectors
    exact ext_vectors vectors again.steps again.pause

theorem verbatim_names :
    ∀ name ∈ ["center", "vector_start", "vector_end", "steps", "step_delay"],
      Verbatim name := by
  simp [Verbatim, isVerbatim]

theorem Reread.tells (again : Reread g told) (finite : ∀ p ∈ g.vectors, p.isFinite) :
    Tells ofJson g.toJson told := by
  obtain ⟨vectors, steps, pause⟩ := again
  obtain ⟨center, start, last, n, span⟩ := told
  simp only [Pinch.vectors, List.forall₂_cons, List.forall_mem_cons] at vectors finite steps pause
  have first := vectors.1.tells finite.1 .text
  have second := vectors.2.1.tells finite.2.1 .text
  have third := vectors.2.2.1.tells finite.2.2.1 .text
  have fourth := tells_word32 g.steps
  have fifth := g.pause.tells
  constructor
  · apply writable_record
      [("center", _), ("vector_start", _), ("vector_end", _), ("steps", _), ("step_delay", _)]
      verbatim_names
    simpa using ⟨first.writable, second.writable, third.writable, fourth.writable,
      fifth.writable⟩
  · simp only [toJson, record, ofJson,
      foldFields_record [("center", _), ("vector_start", _), ("vector_end", _), ("steps", _),
        ("step_delay", _)] verbatim_names,
      List.foldlM_cons, List.foldlM_nil, Draft.take, first.means, second.means, third.means,
      fourth.means, fifth.means, steps, pause]
    rfl

/-- A pinch between finite points is refused for its steps only, or for its span. -/
theorem plan_eq_error {f : PlanFault Float} (finite : ∀ p ∈ g.vectors, p.isFinite)
    (narrow : ¬ f.IsOverflow) :
    g.plan = .error f ↔ g.steps = 0 ∧ f = .noSteps := by
  simp only [vectors, List.forall_mem_cons] at finite
  rcases plan_cases finite.1 finite.2.1 finite.2.2.1 with
    ⟨none, refused⟩ | ⟨some, d, refused⟩ | ⟨p, made⟩
  · rw [refused, Except.error.injEq, eq_comm]
    exact ⟨fun same => ⟨none, same⟩, fun both => both.2⟩
  · rw [refused, Except.error.injEq]
    exact ⟨fun same => absurd ⟨d, same.symm⟩ narrow, fun both => absurd both.1 some⟩
  · rw [made]
    exact ⟨nofun, fun both => absurd both.1 (plan_eq_ok.mp made).1⟩

end Pinch

namespace Paths

variable {g told : Paths Float}

def points (g : Paths Float) : List Position := g.starts ++ g.ends

def coordinates (g : Paths Float) : List Float := g.points.flatMap Point.coordinates

structure Reread (g told : Paths Float) : Prop where
  starts : List.Forall₂ Point.Reread g.starts told.starts
  ends : List.Forall₂ Point.Reread g.ends told.ends
  steps : told.steps = g.steps
  pause : told.pause = g.pause

theorem exists_reread (finite : ∀ p ∈ g.points, p.isFinite) : ∃ told, Reread g told := by
  rw [points, List.forall_mem_append] at finite
  obtain ⟨starts, first⟩ :=
    exists_forall₂ fun p member => Point.exists_reread (finite.1 p member)
  obtain ⟨ends, second⟩ :=
    exists_forall₂ fun p member => Point.exists_reread (finite.2 p member)
  exact ⟨⟨starts, ends, g.steps, g.pause⟩, first, second, rfl, rfl⟩

theorem Reread.points (again : Reread g told) : List.Forall₂ Point.Reread g.points told.points :=
  List.rel_append again.starts again.ends

theorem Reread.eq_iff (again : Reread g told) : told = g ↔
    ∀ x ∈ g.coordinates, reread? x = some x := by
  rw [coordinates, Paths.points, List.flatMap_append, List.forall_mem_append,
    ← Point.forall_reread_eq_iff again.starts, ← Point.forall_reread_eq_iff again.ends]
  obtain ⟨-, -, steps, pause⟩ := again
  cases told
  cases g
  simp_all

theorem verbatim_names : ∀ name ∈ ["starts", "ends", "steps", "step_delay"], Verbatim name := by
  simp [Verbatim, isVerbatim]

theorem Reread.tells (again : Reread g told) (finite : ∀ p ∈ g.points, p.isFinite) :
    Tells ofJson g.toJson told := by
  obtain ⟨starts, ends, steps, pause⟩ := again
  obtain ⟨starts', ends', n, span⟩ := told
  rw [Paths.points, List.forall_mem_append] at finite
  have first := Point.tells_points finite.1 starts .text
  have second := Point.tells_points finite.2 ends .text
  have third := tells_word32 g.steps
  have fourth := g.pause.tells
  constructor
  · apply writable_record [("starts", _), ("ends", _), ("steps", _), ("step_delay", _)]
      verbatim_names
    simpa using ⟨first.writable, second.writable, third.writable, fourth.writable⟩
  · simp only [toJson, record, ofJson,
      foldFields_record [("starts", _), ("ends", _), ("steps", _), ("step_delay", _)]
        verbatim_names,
      List.foldlM_cons, List.foldlM_nil, Draft.take, first.means, second.means, third.means,
      fourth.means]
    subst steps pause
    rfl

def fault? (steps : UInt32) (starts ends : Nat) : Option (PlanFault Float) :=
  if steps = 0 then some .noSteps
  else if starts = 0 then some .noFinger
  else if UInt32.size ≤ starts then some (.tooManyFingers starts)
  else if starts ≠ ends then some (.unequalCounts starts ends)
  else none

theorem plan_eq_error {f : PlanFault Float} (finite : ∀ p ∈ g.points, p.isFinite)
    (narrow : ¬ f.IsOverflow) :
    g.plan = .error f ↔ fault? g.steps g.starts.length g.ends.length = some f := by
  have all := (find_not_finite_eq_none (g.starts ++ g.ends)).mpr finite
  rw [plan, fault?]
  simp only [List.isEmpty_iff_length_eq_zero, all]
  apply guard_eq_error
  intro _
  apply guard_eq_error
  intro _
  apply guard_eq_error
  intro few
  apply guard_eq_error
  intro _
  rcases Plan.build_cases g.ends g.steps g.pause (Nat.not_le.mp few) with
    ⟨d, -, -, refused⟩ | ⟨p, made⟩
  · rw [refused, Except.error.injEq]
    constructor
    · intro same
      exact absurd ⟨d, same.symm⟩ narrow
    · intro counted
      cases counted
  · rw [made]
    constructor
    · intro refused
      cases refused
    · intro counted
      cases counted

theorem Reread.lengths (again : Reread g told) :
    told.starts.length = g.starts.length ∧ told.ends.length = g.ends.length :=
  ⟨again.starts.length_eq.symm, again.ends.length_eq.symm⟩

end Paths

/-- What becomes of a pinch between finite points that is written as JSON and read. -/
structure Pinch.Retold (g told : Pinch Float) : Prop where
  compact : decode ofJson g.toJson.compact = .ok told
  pretty : decode ofJson g.toJson.pretty = .ok told
  reread : Reread g told
  finite : ∀ p ∈ told.vectors, p.isFinite
  same_iff : told = g ↔ ∀ x ∈ g.coordinates, reread? x = some x
  brief : (∀ x ∈ g.coordinates, Brief x) → told = g ∧ told.plan = g.plan
  refused : ∀ f : PlanFault Float,
    ¬ f.IsOverflow → (told.plan = .error f ↔ g.plan = .error f)

/-- What becomes of paths between finite points that are written as JSON and read. A plan of paths
has their points in it, so that another reading has another plan. -/
structure Paths.Retold (g told : Paths Float) : Prop where
  compact : decode ofJson g.toJson.compact = .ok told
  pretty : decode ofJson g.toJson.pretty = .ok told
  reread : Reread g told
  finite : ∀ p ∈ told.points, p.isFinite
  same_iff : told = g ↔ ∀ x ∈ g.coordinates, reread? x = some x
  brief : (∀ x ∈ g.coordinates, Brief x) → told = g ∧ told.plan = g.plan
  refused : ∀ f : PlanFault Float,
    ¬ f.IsOverflow → (told.plan = .error f ↔ g.plan = .error f)
  planned : ∀ p, g.plan = .ok p → (told.plan = .ok p ↔ told = g)

theorem Pinch.exists_retold {g : Pinch Float} (finite : ∀ p ∈ g.vectors, p.isFinite) :
    ∃ told, g.Retold told := by
  obtain ⟨told, again⟩ := exists_reread finite
  have tells := again.tells finite
  have finite' := Point.finite_forall_reread finite again.vectors
  refine ⟨told, tells.compact, tells.pretty, again, finite', again.eq_iff, ?_, ?_⟩
  · intro brief
    have same := again.eq_iff.mpr (Point.reread_brief finite brief)
    exact ⟨same, congrArg plan same⟩
  · intro f narrow
    rw [plan_eq_error finite' narrow, plan_eq_error finite narrow, again.steps]

theorem Paths.exists_retold {g : Paths Float} (finite : ∀ p ∈ g.points, p.isFinite) :
    ∃ told, g.Retold told := by
  obtain ⟨told, again⟩ := exists_reread finite
  have tells := again.tells finite
  have finite' := Point.finite_forall_reread finite again.points
  refine ⟨told, tells.compact, tells.pretty, again, finite', again.eq_iff, ?_, ?_, ?_⟩
  · intro brief
    have same := again.eq_iff.mpr (Point.reread_brief finite brief)
    exact ⟨same, congrArg plan same⟩
  · intro f narrow
    rw [plan_eq_error finite' narrow, plan_eq_error finite narrow, again.steps, again.lengths.1,
      again.lengths.2]
  · intro p made
    constructor
    · intro made'
      have first := (plan_eq_ok.mp made).2.2.2.2.2.2
      have second := (plan_eq_ok.mp made').2.2.2.2.2.2
      rw [first, Plan.mk.injEq] at second
      obtain ⟨starts, ends, -, -, steps, pause⟩ := second
      cases told
      cases g
      simp_all
    · intro same
      rw [same, made]

/-- Whatever finite points a gesture is between, its text is read as a gesture of as many fingers,
with the same steps and the same pause, each coordinate being what its shortest digits are scaled
to. It is the same gesture exactly when every coordinate comes back, as those of few digits do.
Apart from a span that is too much for doubles, a plan is refused for both or for neither, and with
the same fault. -/
theorem gestures_retold {g : Pinch Float} {paths : Paths Float}
    (finite : ∀ p ∈ g.vectors, p.isFinite) (finite' : ∀ p ∈ paths.points, p.isFinite) :
    (∃ told, g.Retold told) ∧ ∃ told, paths.Retold told :=
  ⟨g.exists_retold finite, paths.exists_retold finite'⟩

/-- A pinch of few digits comes back, and so do paths whose counts are not the same. -/
theorem gestures_retold_brief :
    ∃ (g : Pinch Float) (paths : Paths Float), g.center = ⟨540.5, 1e22⟩ ∧
      decode Pinch.ofJson g.toJson.compact = .ok g ∧ paths.plan = .error (.unequalCounts 2 1) ∧
      decode Paths.ofJson paths.toJson.pretty = .ok paths := by
  let g : Pinch Float := ⟨⟨540.5, 1e22⟩, ⟨-0.1, 0⟩, ⟨-0.0, 5e-324⟩, 7, .longest⟩
  let paths : Paths Float :=
    ⟨[⟨1, 2⟩, ⟨3, 4⟩], [⟨0.5, -120.25⟩], 1, .ofMilliseconds 5⟩
  have finite : ∀ p ∈ g.vectors, p.isFinite := by decide +kernel
  have finite' : ∀ p ∈ paths.points, p.isFinite := by decide +kernel
  obtain ⟨⟨told, first⟩, others, second⟩ := gestures_retold finite finite'
  have same : told = g := first.same_iff.mpr (by decide +kernel)
  have same' : others = paths := (second.brief (by decide +kernel)).1
  refine ⟨g, paths, rfl, ?_, rfl, ?_⟩
  · rw [first.compact, same]
  · rw [second.pretty, same']

/-- One eleventh has too many digits: a pinch about it is read as one about the next double, whose
plan is another. -/
theorem gesture_changed :
    ∃ g told : Pinch Float, g.center = ⟨0.09090909090909091, 0⟩ ∧
      (∀ p ∈ g.vectors, p.isFinite) ∧
      decode Pinch.ofJson g.toJson.compact = .ok told ∧
      told.center = ⟨0.09090909090909093, 0⟩ ∧
      told ≠ g ∧ told.plan ≠ g.plan := by
  let g : Pinch Float := ⟨⟨0.09090909090909091, 0⟩, .origin, .origin, 1, ⟨0, by decide⟩⟩
  let told : Pinch Float := { g with center := ⟨0.09090909090909093, 0⟩ }
  have finite : ∀ p ∈ g.vectors, p.isFinite := by decide +kernel
  have again : g.Reread told := by
    refine ⟨.cons ⟨?_, ?_⟩ (.cons ⟨?_, ?_⟩ (.cons ⟨?_, ?_⟩ .nil)), rfl, rfl⟩
    all_goals decide +kernel
  have moved : told.center ≠ g.center := by decide +kernel
  refine ⟨g, told, rfl, finite, (again.tells finite).compact, rfl, ?_, ?_⟩
  · intro same
    exact moved (congrArg Pinch.center same)
  · intro same
    have starts : told.plan.toOption.map Plan.starts = g.plan.toOption.map Plan.starts := by
      rw [same]
    exact absurd starts (by decide +kernel)

end TouchGesture
