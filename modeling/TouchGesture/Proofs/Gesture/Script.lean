import TouchGesture.Proofs.Gesture.Run

/-! A plan written out as one list of touches and sleeps. Carrying the plan out is following its
list. -/

namespace TouchGesture

inductive Act where
  | touch (e : TouchEvent)
  | sleep (span : Span)
  deriving DecidableEq, Repr

def Act.touch? : Act → Option TouchEvent
  | .touch e => some e
  | .sleep _ => none

def Act.tap (point : Position) (hold : Span) : List Act :=
  [.touch (.down ⟨0⟩ point), .sleep hold, .touch (.up ⟨0⟩)]

namespace Plan

variable (p : Plan Float)

def beat (step : Nat) : List Act :=
  (p.moves (p.frame (UInt32.ofNat step))).map .touch ++ [.sleep p.pause]

def through (steps : Nat) : List Act := p.downs.map .touch ++ (List.range steps).flatMap p.beat

def script : List Act :=
  p.through p.steps.toNat ++ (p.moves p.ends).map .touch ++ p.ups.map .touch

theorem through_succ (steps : Nat) :
    p.through (steps + 1) =
      p.through steps ++ (p.moves (p.frame (UInt32.ofNat steps))).map .touch ++
        [.sleep p.pause] := by
  simp only [through, beat, List.range_succ, List.flatMap_append, List.flatMap_singleton,
    List.append_assoc]

theorem filterMap_touch_map (events : List TouchEvent) :
    (events.map Act.touch).filterMap Act.touch? = events := by
  induction events with
  | nil => rfl
  | cons e rest ih => simp only [List.map_cons, List.filterMap_cons, Act.touch?, ih]

theorem touches_beats (steps : List Nat) :
    (steps.flatMap p.beat).filterMap Act.touch? =
      (steps.map fun i => p.frame (UInt32.ofNat i)).flatMap p.moves := by
  induction steps with
  | nil => rfl
  | cons step rest ih =>
      simp only [List.flatMap_cons, List.map_cons, List.filterMap_append, ih, beat,
        filterMap_touch_map]
      simp [Act.touch?]

/-- Without its sleeps the script is the list of the plan's events. -/
theorem touches_script : p.script.filterMap Act.touch? = p.events := by
  simp only [script, through, events, frames, List.filterMap_append, filterMap_touch_map,
    touches_beats]

end Plan

namespace Rig

variable {σ : Type} (r : Rig σ)

/-- Does one act after the other. A touch that is not accepted ends the run. The token is read after
every sleep; once it is raised the fingers are lifted. -/
def follow (fingers : List Finger) : List Act → Run σ Unit
  | [] => pure ()
  | .touch e :: rest => do
      match (← r.touch e).stop? with
      | none => follow fingers rest
      | some stop => throw stop
  | .sleep span :: rest => do
      r.sleep span
      if ← r.cancelled then r.liftAll 0 fingers
      else follow fingers rest

@[simp] theorem on_follow_nil (fingers : List Finger) (s : σ) :
    (r.follow fingers []).on s = (.ok (), s) := rfl

theorem on_follow_touch (fingers : List Finger) (e : TouchEvent) (rest : List Act) (s : σ) :
    (r.follow fingers (.touch e :: rest)).on s =
      match (r.touch e s).1.stop? with
      | none => (r.follow fingers rest).on (r.touch e s).2
      | some stop => (.error stop, (r.touch e s).2) := by
  rw [follow, Run.on_lift_bind]
  cases (r.touch e s).1.stop? <;> rfl

theorem on_follow_sleep (fingers : List Finger) (span : Span) (rest : List Act) (s : σ) :
    (r.follow fingers (.sleep span :: rest)).on s =
      match r.cancelled (r.sleep span s).2 with
      | (true, t) => (r.liftAll 0 fingers).on t
      | (false, t) => (r.follow fingers rest).on t := by
  rw [follow, Run.on_lift_bind, Run.on_lift_bind]
  rcases r.cancelled (r.sleep span s).2 with ⟨raised | raised, t⟩ <;> rfl

theorem follow_append (fingers : List Finger) (front back : List Act) :
    r.follow fingers (front ++ back) = (do r.follow fingers front; r.follow fingers back) := by
  apply Run.ext
  induction front with
  | nil => intro s; rfl
  | cons act front ih =>
      intro s
      rw [Run.on_bind, List.cons_append]
      cases act with
      | touch e =>
          rw [on_follow_touch, on_follow_touch]
          cases (r.touch e s).1.stop? with
          | none => rw [ih, Run.on_bind]
          | some stop => rfl
      | sleep span =>
          rw [on_follow_sleep, on_follow_sleep]
          rcases r.cancelled (r.sleep span s).2 with ⟨raised | raised, t⟩
          · simp only [ih, Run.on_bind]
          · have ends := r.liftAll_bind 0 fingers fun _ => r.follow fingers back
            simpa only [Run.on_bind] using congrArg (Run.on · t) ends.symm

theorem follow_touches (fingers : List Finger) (events : List TouchEvent) :
    r.follow fingers (events.map .touch) = r.touchAll events := by
  apply Run.ext
  induction events with
  | nil =>
      intro s
      rw [List.map_nil, on_follow_nil, on_touchAll_nil]
  | cons e rest ih =>
      intro s
      rw [List.map_cons, on_follow_touch, on_touchAll_cons]
      cases (r.touch e s).1.stop? with
      | none => exact ih _
      | some stop => rfl

theorem follow_beats (p : Plan Float) (step count : Nat) :
    r.follow p.fingerNames ((List.range' step count).flatMap p.beat) = r.pace p step count := by
  induction count generalizing step with
  | zero => rfl
  | succ count ih =>
      rw [List.range'_succ, List.flatMap_cons, Plan.beat, follow_append, follow_append,
        follow_touches, ih, pace]
      simp only [follow, bind_assoc]
      refine bind_congr fun _ => bind_congr fun _ => bind_congr fun raised => ?_
      cases raised with
      | true => exact r.liftAll_bind 0 p.fingerNames _
      | false => rfl

/-- Carrying out a plan is following its script, unless the token is raised before. -/
theorem execute_eq_follow (p : Plan Float) :
    r.execute p = (do
      if ← r.cancelled then throw (.fault (.cancelled 0))
      r.note (.gestureStart p.fingers.toNat p.steps.toNat (UInt64.ofNat p.pause.microseconds))
      r.follow p.fingerNames p.script
      r.note (.gestureComplete p.eventCount)) := by
  have beats := r.follow_beats p 0 p.steps.toNat
  rw [← List.range_eq_range'] at beats
  simp only [execute, Plan.script, Plan.through, follow_append, follow_touches, beats, bind_assoc]

theorem on_execute (p : Plan Float) (s : σ) :
    (r.execute p).on s =
      match r.cancelled s with
      | (true, t) => (.error (.fault (.cancelled 0)), t)
      | (false, t) =>
          (do r.follow p.fingerNames p.script
              r.note (.gestureComplete p.eventCount) : Run σ Unit).on
            (r.note (.gestureStart p.fingers.toNat p.steps.toNat
              (UInt64.ofNat p.pause.microseconds)) t).2 := by
  rw [execute_eq_follow, Run.on_lift_bind]
  rcases r.cancelled s with ⟨raised | raised, t⟩ <;> rfl

theorem follow_tap (point : Position) (hold : Span) :
    r.follow [⟨0⟩] (Act.tap point hold) = (do
      r.touchAll [.down ⟨0⟩ point]
      r.sleep hold
      if ← r.cancelled then r.liftAll 0 [⟨0⟩] else r.touchAll [.up ⟨0⟩]) := by
  have parts : Act.tap point hold =
      [Touch.down ⟨0⟩ point].map .touch ++ (.sleep hold :: [Touch.up ⟨0⟩].map .touch) := rfl
  rw [parts, follow_append, follow_touches, follow, follow_touches]

theorem on_tap {point : Position} (finite : point.isFinite) (hold : Span) (s : σ) :
    (r.tap point hold).on s =
      match r.cancelled s with
      | (true, t) => (.error (.fault (.cancelled 0)), t)
      | (false, t) => (r.follow [⟨0⟩] (Act.tap point hold)).on (r.note (.tap point) t).2 := by
  rw [follow_tap, tap, finite]
  simp only [Bool.not_true, Bool.false_eq_true, if_false]
  rw [Run.on_lift_bind]
  rcases r.cancelled s with ⟨raised | raised, t⟩ <;> rfl

theorem on_tap_refused {point : Position} (infinite : ¬ point.isFinite) (hold : Span) (s : σ) :
    (r.tap point hold).on s = (.error (.fault (.invalidArgument (.tapPoint point))), s) := by
  rw [tap, Bool.eq_false_iff.mpr infinite]
  rfl

end Rig

end TouchGesture
