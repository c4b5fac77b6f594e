import TouchGesture.Proofs.Gesture.Tracks

/-! Plans of either planner lose no finger where their lists are taken together, and a run keeps to
the rows of touches of its plan. -/

namespace TouchGesture

namespace Plan

theorem getElem?_frames {p : Plan Float} {step : UInt32} (before : step < p.steps) :
    p.frames[step.toNat]? = some (p.frame step) := by
  have inside : step.toNat < p.steps.toNat := UInt32.lt_iff_toNat_lt.mp before
  rw [frames, List.getElem?_map, List.getElem?_range inside, Option.map_some, UInt32.ofNat_toNat]

end Plan

theorem Trace.touches_lifts (fingers : List Finger) (verdicts : List Verdict) :
    (Trace.lifts fingers verdicts).filterMap Entry.touch? =
      (fingers.take verdicts.length).map .up := by
  induction fingers generalizing verdicts with
  | nil => rw [List.take_nil]; rfl
  | cons f rest ih =>
      cases verdicts with
      | nil => rfl
      | cons verdict verdicts => exact congrArg (Touch.up f :: ·) (ih verdicts)

theorem Lifting.touches {lifted : Nat} {fingers : List Finger} {trace : Trace}
    {ending : Except Stop Unit} (lifting : Lifting lifted fingers trace ending) :
    trace.filterMap Entry.touch? <+: fingers.map .up ∧
      ∀ count, ending = .error (.fault (.cancelled count)) →
        trace.filterMap Entry.touch? = fingers.map .up := by
  cases lifting with
  | finished verdicts length _ =>
      rw [Trace.touches_lifts, length, List.take_length]
      exact ⟨List.prefix_rfl, fun _ _ => rfl⟩
  | crashed verdicts _ _ =>
      rw [Trace.touches_lifts]
      exact ⟨(List.take_prefix _ _).map _, nofun⟩

/-- Wherever a script is cut, the touches up to there were made, and lifts alone are made after a
cut. -/
theorem Passage.touches {fingers : List Finger} {script : List Act} {trace : Trace}
    {ending : Except Stop Unit} (passage : Passage fingers script trace ending) :
    ∃ done lifts, trace.filterMap Entry.touch? = done ++ lifts ∧
      done <+: script.filterMap Act.touch? ∧
      lifts <+: fingers.map .up ∧
      (ending = .ok () → done = script.filterMap Act.touch? ∧ lifts = []) ∧
      ∀ count, ending = .error (.fault (.cancelled count)) → lifts = fingers.map .up := by
  obtain ⟨front, after, rfl, ended, cut, whole⟩ := passage.observed observes_touches
  refine ⟨_, _, List.filterMap_append, cut, ?_⟩
  rcases ended with ⟨rfl, going⟩ | lifting
  · exact ⟨List.nil_prefix, fun went => ⟨whole went, rfl⟩,
      fun count stop => absurd stop (going count)⟩
  · obtain ⟨begun, all⟩ := lifting.touches
    exact ⟨begun, fun went => absurd went lifting.ending_ne_ok, all⟩

namespace Plan

/-- What a run of a plan touches: it begins as the events do, and after a cut there are lifts alone.
A run that goes through makes all of the events. One that is cancelled has touched nothing, or it
lifts all fingers. -/
def Follows (p : Plan Float) (touches : List TouchEvent) (ending : Except Stop Unit) : Prop :=
  ∃ done lifts, touches = done ++ lifts ∧ done <+: p.events ∧ lifts <+: p.ups ∧
    (ending = .ok () → done = p.events ∧ lifts = []) ∧
    ∀ count, ending = .error (.fault (.cancelled count)) → touches = [] ∨ lifts = p.ups

theorem follows_of_course {p : Plan Float} {trace : Trace} {ending : Except Stop Unit}
    (course : Course p.fingerNames p.script trace ending) :
    p.Follows (trace.filterMap Entry.touch?) ending := by
  cases course with
  | withheld =>
      exact ⟨[], [], rfl, List.nil_prefix, List.nil_prefix, nofun, fun _ _ => .inl rfl⟩
  | begun steps _ passage =>
      obtain ⟨done, lifts, touches, begun, lifted, whole, all⟩ := passage.touches
      rw [p.touches_script] at begun whole
      exact ⟨done, lifts, touches, begun, lifted, whole,
        fun count stop => .inr (all count stop)⟩

/-- A plan from its starts to its ends in its steps. There is a step and a finger, and a start, an
end, a delta and a place in every frame for each finger, past the last step too. The frames are
those of the steps in order, the events are just the rows of touches at these places, and a run
keeps to them. -/
structure Rowed (p : Plan Float) (starts ends : List Position) (steps : UInt32) : Prop where
  aligned : p.Aligned
  starts_eq : p.starts = starts
  ends_eq : p.ends = ends
  steps_eq : p.steps = steps
  frame_length : ∀ step, (p.frame step).length = p.fingers.toNat
  frames_length : p.frames.length = p.steps.toNat
  frames_step : ∀ step < p.steps, p.frames[step.toNat]? = some (p.frame step)
  events_rows : ∀ touches, p.Rows touches ↔ touches = p.events
  runs_follow : ∀ {σ : Type} (r : Rig σ) (s : σ), ∃ trace ending t,
    (r.traced.execute p).on (s, []) = (ending, t, trace) ∧ (r.execute p).on s = (ending, t) ∧
    p.Follows (trace.filterMap Entry.touch?) ending

theorem Aligned.rowed {p : Plan Float} (aligned : p.Aligned) : p.Rowed p.starts p.ends p.steps where
  aligned := aligned
  starts_eq := rfl
  ends_eq := rfl
  steps_eq := rfl
  frame_length := aligned.frame_length
  frames_length := p.length_frames
  frames_step _ before := getElem?_frames before
  events_rows _ := aligned.rows_iff
  runs_follow r s := by
    obtain ⟨trace, ending, t, record, run, course⟩ := r.execute_traced p s
    exact ⟨trace, ending, t, record, run, follows_of_course course⟩

end Plan

/-- A plan that either planner makes has a place for every finger wherever its lists are taken
together. A pinch has two fingers. -/
theorem plans_rowed :
    (∀ (g : Pinch Float) (p : Plan Float), g.plan = .ok p →
      p.Rowed g.startPoints g.endPoints g.steps ∧ p.fingers = 2) ∧
    ∀ (g : Paths Float) (p : Plan Float), g.plan = .ok p → p.Rowed g.starts g.ends g.steps := by
  constructor
  · intro g p made
    have aligned := g.plan_aligned made
    obtain ⟨-, -, -, -, -, -, rfl⟩ := Pinch.plan_eq_ok.mp made
    exact ⟨aligned.rowed, rfl⟩
  · intro g p made
    have aligned := g.plan_aligned made
    obtain ⟨-, -, -, -, -, -, rfl⟩ := Paths.plan_eq_ok.mp made
    exact aligned.rowed

/-- A pinch in as many steps as there can be, and three fingers side by side. -/
theorem plans_rowed_side_by_side :
    ∃ (g : Pinch Float) (p : Plan Float) (g' : Paths Float) (p' : Plan Float),
      g = ⟨⟨0, 0⟩, ⟨1, 0⟩, ⟨2, 0⟩, 4294967295, .ofMilliseconds 5⟩ ∧
      g.plan = .ok p ∧
      g' = ⟨[⟨0, 0⟩, ⟨0, 10⟩, ⟨0, 20⟩], [⟨9, 0⟩, ⟨9, 10⟩, ⟨9, 20⟩], 3,
        .ofMilliseconds 4⟩ ∧
      g'.plan = .ok p' ∧
      p.Rowed g.startPoints g.endPoints g.steps ∧ p.fingers = 2 ∧
      p'.Rowed g'.starts g'.ends g'.steps := by
  have pinched : (⟨⟨0, 0⟩, ⟨1, 0⟩, ⟨2, 0⟩, 4294967295, .ofMilliseconds 5⟩ :
      Pinch Float).plan = .ok _ :=
    Pinch.plan_eq_ok.mpr ⟨by decide, by decide, by decide, by decide, by decide +kernel,
      by decide +kernel, rfl⟩
  have planned : (⟨[⟨0, 0⟩, ⟨0, 10⟩, ⟨0, 20⟩], [⟨9, 0⟩, ⟨9, 10⟩, ⟨9, 20⟩], 3,
      .ofMilliseconds 4⟩ : Paths Float).plan = .ok _ :=
    Paths.plan_eq_ok.mpr ⟨by decide, by decide, by decide, by decide, by decide +kernel,
      by decide +kernel, rfl⟩
  obtain ⟨pinches, paths⟩ := plans_rowed
  obtain ⟨rowed, two⟩ := pinches _ _ pinched
  exact ⟨_, _, _, _, rfl, pinched, rfl, planned, rowed, two, paths _ _ planned⟩

end TouchGesture
