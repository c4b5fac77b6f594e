import TouchGesture.Clock
import TouchGesture.Proofs.Gesture.Schedule
import TouchGesture.Proofs.Gesture.Trace
import TouchGesture.Touch.Recorder

/-! Carrying out a plan without a token, beside offering its list of events to the device one by
one. -/

namespace TouchGesture

def Verdict.ending (verdict : Verdict) : Except Stop Unit :=
  match verdict.stop? with
  | none => .ok ()
  | some stop => .error stop

namespace Device

variable {σ τ : Type} (d : Device σ)

def offer : List TouchEvent → σ → Verdict × σ
  | [], s => (.accepted, s)
  | e :: rest, s =>
      match d.touch e s with
      | (.accepted, t) => offer rest t
      | refused => refused

/-- A rig around a device. The time source and the token may share a state, of which the device
knows nothing. -/
def rig (sleep : Span → τ → τ) (cancelled : τ → Bool × τ) : Rig (σ × τ) where
  touch e := fun (s, c) =>
    let (verdict, s) := d.touch e s
    (verdict, s, c)
  sleep span := fun (s, c) => ((), s, sleep span c)
  cancelled := fun (s, c) =>
    let (raised, c) := cancelled c
    (raised, s, c)
  note _ := pure ()

theorem rig_touch (sleep : Span → τ → τ) (cancelled : τ → Bool × τ) (e : TouchEvent)
    (s : σ) (c : τ) :
    (d.rig sleep cancelled).touch e (s, c) = ((d.touch e s).1, (d.touch e s).2, c) := rfl

theorem rig_note (sleep : Span → τ → τ) (cancelled : τ → Bool × τ) (n : Note)
    (t : σ × τ) :
    (d.rig sleep cancelled).note n t = ((), t) := rfl

end Device

def Act.granted : Act → Entry
  | .touch e => .touched e .accepted
  | .sleep span => .slept span

/-- The traces and endings of following a script without a token: all of it is done, or it is cut
after the first touch that is not accepted. -/
inductive Drive (script : List Act) : Trace → Except Stop Unit → Prop
  | completed : Drive script (script.map Act.granted) (.ok ())
  | stopped (done : List Act) (e : TouchEvent) (verdict : Verdict) (stop : Stop) :
      done ++ [.touch e] <+: script → verdict.stop? = some stop →
      Drive script (done.map Act.granted ++ [.touched e verdict]) (.error stop)

theorem Drive.cons {script : List Act} {trace : Trace} {ending : Except Stop Unit} (act : Act)
    (drive : Drive script trace ending) : Drive (act :: script) (act.granted :: trace) ending := by
  cases drive with
  | completed => exact .completed
  | stopped done e verdict stop cut refused =>
      exact .stopped (act :: done) e verdict stop (List.cons_prefix_cons.mpr ⟨rfl, cut⟩) refused

namespace Rig

variable {σ : Type} (r : Rig σ)

theorem unwatched_touch (e : TouchEvent) : r.unwatched.touch e = r.touch e := rfl

theorem unwatched_note (n : Note) : r.unwatched.note n = r.note n := rfl

theorem unwatched_cancelled (s : σ) : r.unwatched.cancelled s = (false, s) := rfl

theorem follow_unwatched (fingers : List Finger) (script : List Act) (s : σ) (trace : Trace) :
    ∃ steps ending t,
      (r.traced.unwatched.follow fingers script).on (s, trace) = (ending, t, trace ++ steps) ∧
      (r.unwatched.follow fingers script).on s = (ending, t) ∧ Drive script steps ending := by
  induction script generalizing s trace with
  | nil => exact ⟨[], .ok (), s, by simp, rfl, .completed⟩
  | cons act rest ih =>
      cases act with
      | touch e =>
          rw [on_follow_touch, on_follow_touch, unwatched_touch, unwatched_touch, traced_touch]
          cases answer : (r.touch e s).1.stop? with
          | none =>
              rw [Verdict.stop?_eq_none answer]
              obtain ⟨steps, ending, t, record, run, drive⟩ := ih (r.touch e s).2
                (trace ++ [.touched e .accepted])
              exact ⟨_, ending, t, record.trans (by simp [Act.granted]), run,
                drive.cons (.touch e)⟩
          | some stop => exact ⟨_, _, _, rfl, rfl, .stopped [] e _ stop (by simp) answer⟩
      | sleep span =>
          rw [on_follow_sleep, on_follow_sleep]
          obtain ⟨steps, ending, t, record, run, drive⟩ := ih (r.sleep span s).2
            (trace ++ [.slept span])
          exact ⟨_, ending, t, record.trans (by simp [Act.granted]), run,
            drive.cons (.sleep span)⟩

theorem execute_unwatched (p : Plan Float) (s : σ) :
    ∃ trace ending t,
      (r.traced.unwatched.execute p).on (s, []) = (ending, t, trace) ∧
      (r.unwatched.execute p).on s = (ending, t) ∧ Drive p.script trace ending := by
  obtain ⟨trace, ending, t, record, run, drive⟩ := r.follow_unwatched p.fingerNames p.script
    (r.note (.gestureStart p.fingers.toNat p.steps.toNat (UInt64.ofNat p.pause.microseconds)) s).2
      []
  rw [on_execute, on_execute]
  refine ⟨trace, ending, ?_⟩
  simp only [unwatched_cancelled, unwatched_note, Run.on_bind, traced_note, record, run]
  cases ending with
  | ok => exact ⟨_, rfl, rfl, drive⟩
  | error stop => exact ⟨_, rfl, rfl, drive⟩

theorem tap_unwatched {point : Position} (finite : point.isFinite) (hold : Span) (s : σ) :
    ∃ trace ending t,
      (r.traced.unwatched.tap point hold).on (s, []) = (ending, t, trace) ∧
      (r.unwatched.tap point hold).on s = (ending, t) ∧
      Drive (Act.tap point hold) trace ending := by
  obtain ⟨trace, ending, t, record, run, drive⟩ :=
    r.follow_unwatched [⟨0⟩] (Act.tap point hold)
    (r.note (.tap point) s).2 []
  rw [on_tap _ finite, on_tap _ finite]
  exact ⟨trace, ending, t, record, run, drive⟩

end Rig

namespace Device

variable {σ τ : Type} (d : Device σ) (sleep : Span → τ → τ) (cancelled : τ → Bool × τ)

/-- On a rig without a token the device meets the touches of a script and nothing else. -/
theorem follow_unwatched_offer (fingers : List Finger) (script : List Act) (s : σ) (c : τ) :
    ∃ c', ((d.rig sleep cancelled).unwatched.follow fingers script).on (s, c) =
      ((d.offer (script.filterMap Act.touch?) s).1.ending,
        (d.offer (script.filterMap Act.touch?) s).2, c') := by
  induction script generalizing s c with
  | nil => exact ⟨c, rfl⟩
  | cons act rest ih =>
      cases act with
      | touch e =>
          rw [Rig.on_follow_touch, Rig.unwatched_touch, rig_touch]
          rw [List.filterMap_cons_some (by rfl), offer]
          rcases d.touch e s with ⟨verdict, t⟩
          cases verdict with
          | accepted => exact ih t c
          | rejected refusal => exact ⟨c, rfl⟩
          | crashed => exact ⟨c, rfl⟩
      | sleep span =>
          rw [Rig.on_follow_sleep]
          exact ih s (sleep span c)

theorem execute_unwatched_offer (p : Plan Float) (s : σ) (c : τ) :
    ∃ c', ((d.rig sleep cancelled).unwatched.execute p).on (s, c) =
      ((d.offer p.events s).1.ending, (d.offer p.events s).2, c') := by
  obtain ⟨c', offered⟩ := d.follow_unwatched_offer sleep cancelled p.fingerNames p.script s c
  rw [Plan.touches_script] at offered
  refine ⟨c', ?_⟩
  rw [Rig.on_execute, Rig.unwatched_cancelled]
  dsimp only
  rw [Run.on_bind, Rig.unwatched_note, rig_note, offered]
  cases (d.offer p.events s).1.ending <;> rfl

/-- Without a token, carrying out a plan does its schedule up to the first touch that is not
accepted, and then stops as that touch says. The device is left as if the touches of the rows had
been offered to it one by one, and the run ends as that offer does. -/
theorem execute_made_dispatches {p : Plan Float} (made : p.Made) (s : σ) (c : τ) :
    ∃ script trace ending s' c',
      ((d.rig sleep cancelled).traced.unwatched.execute p).on ((s, c), []) =
        (ending, (s', c'), trace) ∧
      ((d.rig sleep cancelled).unwatched.execute p).on (s, c) = (ending, s', c') ∧
      p.Aligned ∧ (∀ step, (p.frame step).length = p.fingers.toNat) ∧
      (∀ acts, p.Scheduled acts ↔ acts = script) ∧ script.filterMap Act.touch? = p.events ∧
      p.Rows p.events ∧ Drive script trace ending ∧
      s' = (d.offer p.events s).2 ∧ ending = (d.offer p.events s).1.ending := by
  have aligned := made.aligned
  obtain ⟨trace, ending, ⟨s', c'⟩, record, run, drive⟩ :=
    (d.rig sleep cancelled).execute_unwatched p (s, c)
  obtain ⟨u, offered⟩ := d.execute_unwatched_offer sleep cancelled p s c
  have same := run.symm.trans offered
  simp only [Prod.mk.injEq] at same
  exact ⟨p.script, trace, ending, s', c', record, run, aligned, aligned.frame_length,
    fun _ => aligned.scheduled_iff, p.touches_script, aligned.rows_events, drive, same.2.1,
    same.1⟩

/-- A pinch on a recorder that refuses its fifth touch: two fingers go down, are moved once, and the
first is refused its second move after one sleep. -/
theorem execute_made_dispatches_pinch :
    ∃ p : Plan Float, p.Made ∧ p.fingers = 2 ∧
      ∃ script trace ending s' c',
        ((Recorder.device.rig VirtualClock.sleep (Prod.mk false)).traced.unwatched.execute p).on
          ((Recorder.new.failingAt 5, {}), []) = (ending, (s', c'), trace) ∧
        ((Recorder.device.rig VirtualClock.sleep (Prod.mk false)).unwatched.execute p).on
          (Recorder.new.failingAt 5, {}) = (ending, s', c') ∧
        p.Aligned ∧ (∀ step, (p.frame step).length = p.fingers.toNat) ∧
        (∀ acts, p.Scheduled acts ↔ acts = script) ∧
        script.filterMap Act.touch? = p.events ∧
        p.Rows p.events ∧ Drive script trace ending ∧
        s' = (Recorder.device.offer p.events (Recorder.new.failingAt 5)).2 ∧
        ending = (Recorder.device.offer p.events (Recorder.new.failingAt 5)).1.ending ∧
        trace = [.touched (.down ⟨0⟩ ⟨-10, 0⟩) .accepted,
          .touched (.down ⟨1⟩ ⟨10, 0⟩) .accepted,
          .touched (.move ⟨0⟩ ⟨-20, 0⟩) .accepted,
          .touched (.move ⟨1⟩ ⟨20, 0⟩) .accepted,
          .slept (.ofMilliseconds 5),
          .touched (.move ⟨0⟩ ⟨-30, 0⟩) (.rejected (.injected 5))] := by
  obtain ⟨script, trace, ending, s', c', record, run, aligned, frames, scheduled, touches, rows,
    drive, left, ended⟩ :=
    execute_made_dispatches Recorder.device VirtualClock.sleep (Prod.mk false)
      (.inl ⟨_, Pinch.zoom_planned⟩) (Recorder.new.failingAt 5) {}
  refine ⟨_, .inl ⟨_, Pinch.zoom_planned⟩, rfl, script, trace, ending, s', c', record, run,
    aligned, frames, scheduled, touches, rows, drive, left, ended,
    (congrArg (·.2.2) record).symm.trans ?_⟩
  decide +kernel

end Device

end TouchGesture
