import TouchGesture.Proofs.Clock.Passage
import TouchGesture.Proofs.Gesture.Dispatch
import TouchGesture.Proofs.Gesture.Invariant

/-! Gestures that sleep on a virtual clock: what the clock counts, however the gesture ends. -/

namespace TouchGesture

def Act.span? : Act → Option Span
  | .touch _ => none
  | .sleep span => some span

def Entry.span? : Entry → Option Span
  | .slept span => some span
  | _ => none

namespace Plan

variable (p : Plan Float)

theorem spans_touches (events : List TouchEvent) :
    (events.map Act.touch).filterMap Act.span? = [] := by
  simp [List.filterMap_map, Function.comp_def, Act.span?]

theorem spans_through (steps : Nat) :
    (p.through steps).filterMap Act.span? = List.replicate steps p.pause := by
  induction steps with
  | zero =>
      rw [through, List.range_zero, List.flatMap_nil, List.append_nil, spans_touches]
      rfl
  | succ steps ih =>
      rw [through_succ, List.filterMap_append, List.filterMap_append, ih, spans_touches]
      simp [Act.span?, List.replicate_succ']

theorem spans_script : p.script.filterMap Act.span? = List.replicate p.steps.toNat p.pause := by
  simp only [script, List.filterMap_append, spans_through, spans_touches, List.append_nil]

theorem nanoseconds_duration (fits : p.steps.toNat * p.pause.nanoseconds < UInt64.size) :
    p.duration.nanoseconds = p.steps.toNat * p.pause.nanoseconds := by
  have short : p.pause.nanoseconds * p.steps.toNat < Span.limit := by
    rw [Nat.mul_comm]
    unfold Span.limit
    omega
  rw [duration, Span.times, Span.ofNanoseconds, dif_pos short]
  exact Nat.mul_comm _ _

end Plan

theorem observes_spans : Observes Entry.span? Act.span? :=
  ⟨fun _ _ => rfl, fun _ => rfl, fun _ => rfl⟩

theorem Trace.spans_lifts (fingers : List Finger) (verdicts : List Verdict) :
    (Trace.lifts fingers verdicts).filterMap Entry.span? = [] := by
  induction fingers generalizing verdicts with
  | nil => rfl
  | cons f rest ih =>
      cases verdicts with
      | nil => rfl
      | cons verdict verdicts => exact ih verdicts

theorem Lifting.spans {lifted : Nat} {fingers : List Finger} {trace : Trace}
    {ending : Except Stop Unit}
    (lifting : Lifting lifted fingers trace ending) : trace.filterMap Entry.span? = [] := by
  cases lifting <;> exact Trace.spans_lifts fingers _

/-- Wherever a script is cut, the sleeps up to there were slept, and nothing sleeps after the
cut. -/
theorem Passage.spans {fingers : List Finger} {script : List Act} {trace : Trace}
    {ending : Except Stop Unit} (passage : Passage fingers script trace ending) :
    trace.filterMap Entry.span? <+: script.filterMap Act.span? ∧
      (ending = .ok () → trace.filterMap Entry.span? = script.filterMap Act.span?) := by
  obtain ⟨front, lifts, rfl, after, cut, whole⟩ := passage.observed observes_spans
  have quiet : lifts.filterMap Entry.span? = [] := by
    rcases after with ⟨rfl, -⟩ | lifting
    · rfl
    · exact lifting.spans
  rw [List.filterMap_append, quiet, List.append_nil]
  exact ⟨cut, whole⟩

theorem Course.pauses {p : Plan Float} {trace : Trace} {ending : Except Stop Unit}
    (course : Course p.fingerNames p.script trace ending) :
    ∃ j, trace.filterMap Entry.span? = List.replicate j p.pause ∧ j ≤ p.steps.toNat ∧
      (ending = .ok () → j = p.steps.toNat) := by
  cases course with
  | withheld => exact ⟨0, rfl, Nat.zero_le _, nofun⟩
  | begun steps _ passage =>
      obtain ⟨cut, whole⟩ := passage.spans
      rw [p.spans_script] at cut whole
      obtain ⟨few, same⟩ := List.prefix_replicate_iff.mp cut
      refine ⟨_, same, few, fun done => ?_⟩
      rw [whole done, List.length_replicate]

namespace Rig

variable {σ : Type} {r : Rig σ} {clock : σ → VirtualClock}

/-- Every sleep of the rig is a sleep of the clock that `clock` shows, and nothing else changes
it. -/
structure Timed (r : Rig σ) (clock : σ → VirtualClock) : Prop where
  touch : ∀ e s, clock (r.touch e s).2 = clock s
  sleep : ∀ span s, clock (r.sleep span s).2 = (clock s).sleep span
  cancelled : ∀ s, clock (r.cancelled s).2 = clock s
  note : ∀ n s, clock (r.note n s).2 = clock s

private theorem sleepAll_quiet {c : VirtualClock} {trace : Trace} {entry : Entry}
    (quiet : entry.span? = none) :
    c.sleepAll (trace.filterMap Entry.span?) =
      c.sleepAll ((trace ++ [entry]).filterMap Entry.span?) := by
  rw [List.filterMap_append, List.filterMap_cons_none quiet, List.filterMap_nil, List.append_nil]

/-- The clock tells the sleeps of the trace. -/
theorem Timed.told (timed : r.Timed clock) (c : VirtualClock) :
    r.traced.Keeps fun state => clock state.1 = c.sleepAll (state.2.filterMap Entry.span?) where
  touch e state told := (timed.touch e state.1).trans (told.trans (sleepAll_quiet rfl))
  sleep span state told := by
    rw [traced_sleep, List.filterMap_append, VirtualClock.sleepAll_append, ← told]
    exact timed.sleep span state.1
  cancelled state told := (timed.cancelled state.1).trans (told.trans (sleepAll_quiet rfl))
  note n state told := (timed.note n state.1).trans told

/-- Carrying out a plan on a virtual clock, whatever the device and the token answer. The clock is
left with one pause and one sleep for each time that the gesture slept, both counted in 64 bits;
that is once for every step if it goes through. As long as the sum fits 64 bits, the clock then has
advanced by the duration of the plan. -/
theorem execute_timed (timed : r.Timed clock) (p : Plan Float) (s : σ) :
    ∃ trace ending t j,
      (r.traced.execute p).on (s, []) = (ending, t, trace) ∧ (r.execute p).on s = (ending, t) ∧
      trace.filterMap Entry.span? = List.replicate j p.pause ∧ j ≤ p.steps.toNat ∧
      (ending = .ok () → j = p.steps.toNat) ∧
      (clock t).elapsed.toNat =
        ((clock s).elapsed.toNat + j * min p.pause.nanoseconds (UInt64.size - 1)) % UInt64.size ∧
      (clock t).sleeps.toNat = ((clock s).sleeps.toNat + j) % UInt64.size ∧
      (ending = .ok () →
        (clock s).elapsed.toNat + p.steps.toNat * p.pause.nanoseconds < UInt64.size →
        (clock t).now.nanoseconds = (clock s).now.nanoseconds + p.duration.nanoseconds) := by
  obtain ⟨trace, ending, t, record, run, course⟩ := r.execute_traced p s
  obtain ⟨j, slept, few, all⟩ := course.pauses
  have told := (timed.told (clock s)).execute (s := (s, [])) p rfl
  rw [record, slept] at told
  have elapsed : (clock t).elapsed.toNat =
      ((clock s).elapsed.toNat + j * min p.pause.nanoseconds (UInt64.size - 1)) % UInt64.size := by
    rw [told, VirtualClock.elapsed_sleepAll_replicate]
  have sleeps : (clock t).sleeps.toNat = ((clock s).sleeps.toNat + j) % UInt64.size := by
    rw [told, VirtualClock.sleeps_sleepAll_replicate]
  refine ⟨trace, ending, t, j, record, run, slept, few, all, elapsed, sleeps,
    fun done fits => ?_⟩
  obtain rfl := all done
  have pauses : p.steps.toNat * min p.pause.nanoseconds (UInt64.size - 1) =
      p.steps.toNat * p.pause.nanoseconds := by
    rcases Nat.eq_zero_or_pos p.steps.toNat with none | some
    · rw [none, Nat.zero_mul, Nat.zero_mul]
    · have single := Nat.le_mul_of_pos_left p.pause.nanoseconds some
      rw [Nat.min_eq_left (by omega)]
  rw [VirtualClock.nanoseconds_now, VirtualClock.nanoseconds_now, elapsed, pauses,
    Nat.mod_eq_of_lt fits, p.nanoseconds_duration (by omega)]

/-- A clock that is about to run over, and a token that is raised by its second sleep. -/
theorem execute_timed_wrapping :
    ∃ (r : Rig (Recorder × VirtualClock)) (p : Plan Float) (s : Recorder × VirtualClock),
      p.steps = 4 ∧ p.pause = .ofMilliseconds 5 ∧ s.2.elapsed.toNat = UInt64.size - 1 ∧
      r.Timed Prod.snd ∧
      ∃ trace ending t j,
        (r.traced.execute p).on (s, []) = (ending, t, trace) ∧
        (r.execute p).on s = (ending, t) ∧
        trace.filterMap Entry.span? = List.replicate j p.pause ∧ j ≤ p.steps.toNat ∧
        (ending = .ok () → j = p.steps.toNat) ∧
        t.2.elapsed.toNat =
          (s.2.elapsed.toNat + j * min p.pause.nanoseconds (UInt64.size - 1)) % UInt64.size ∧
        t.2.sleeps.toNat = (s.2.sleeps.toNat + j) % UInt64.size ∧
        (ending = .ok () →
          s.2.elapsed.toNat + p.steps.toNat * p.pause.nanoseconds < UInt64.size →
          t.2.now.nanoseconds = s.2.now.nanoseconds + p.duration.nanoseconds) := by
  let r := Recorder.device.rig VirtualClock.sleep fun c => (decide (2 ≤ c.sleeps), c)
  let p : Plan Float := ⟨[⟨0, 0⟩], [⟨10, 0⟩], [⟨2.5, 0⟩], 1, 4, .ofMilliseconds 5⟩
  let s : Recorder × VirtualClock := (Recorder.new, ⟨18446744073709551615, 0⟩)
  have timed : r.Timed Prod.snd :=
    ⟨fun _ _ => rfl, fun _ _ => rfl, fun _ => rfl, fun _ _ => rfl⟩
  exact ⟨r, p, s, rfl, rfl, rfl, timed, execute_timed timed p s⟩

end Rig

end TouchGesture
