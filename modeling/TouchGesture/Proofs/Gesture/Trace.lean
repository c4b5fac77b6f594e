import TouchGesture.Proofs.Gesture.Script

/-! The trace of a run: every touch with its answer, every sleep and every look at the token, in the
order in which they happen. -/

namespace TouchGesture

inductive Entry where
  | touched (e : TouchEvent) (verdict : Verdict)
  | slept (span : Span)
  | looked (raised : Bool)
  deriving DecidableEq, Repr

abbrev Trace := List Entry

/-- The same rig, which also writes down what is asked of it and what it answers. -/
def Rig.traced {σ : Type} (r : Rig σ) : Rig (σ × Trace) where
  touch e := fun (s, trace) =>
    let (verdict, s) := r.touch e s
    (verdict, s, trace ++ [.touched e verdict])
  sleep span := fun (s, trace) => ((), (r.sleep span s).2, trace ++ [.slept span])
  cancelled := fun (s, trace) =>
    let (raised, s) := r.cancelled s
    (raised, s, trace ++ [.looked raised])
  note n := fun (s, trace) => ((), (r.note n s).2, trace)

/-- The trace of an act that lets the run go on: an accepted touch, or a sleep after which the token
is not raised. -/
def Act.passed : Act → Trace
  | .touch e => [.touched e .accepted]
  | .sleep span => [.slept span, .looked false]

structure Observes {α : Type} (read : Entry → Option α) (tell : Act → Option α) : Prop where
  touched : ∀ e verdict, read (.touched e verdict) = tell (.touch e)
  slept : ∀ span, read (.slept span) = tell (.sleep span)
  looked : ∀ raised, read (.looked raised) = none

namespace Observes

variable {α : Type} {read : Entry → Option α} {tell : Act → Option α}
  (observes : Observes read tell)
include observes

theorem filterMap_touched (e : TouchEvent) (verdict : Verdict) :
    [Entry.touched e verdict].filterMap read = [Act.touch e].filterMap tell := by
  simp only [List.filterMap_cons, observes.touched, List.filterMap_nil]

theorem filterMap_slept (span : Span) (raised : Bool) :
    [Entry.slept span, Entry.looked raised].filterMap read = [Act.sleep span].filterMap tell := by
  simp only [List.filterMap_cons, observes.slept, observes.looked, List.filterMap_nil]

theorem filterMap_passed (acts : List Act) :
    (acts.flatMap Act.passed).filterMap read = acts.filterMap tell := by
  induction acts with
  | nil => rfl
  | cons act rest ih =>
      rw [List.flatMap_cons, List.filterMap_append, ih, ← List.singleton_append,
        List.filterMap_append]
      cases act with
      | touch e => rw [Act.passed, observes.filterMap_touched]
      | sleep span => rw [Act.passed, observes.filterMap_slept]

end Observes

def Trace.lifts (fingers : List Finger) (verdicts : List Verdict) : Trace :=
  List.zipWith (fun f verdict => .touched (.up f) verdict) fingers verdicts

/-- The traces and endings of lifting fingers after some were lifted before. Every finger is lifted
once and in order, whatever the device answers, and the run ends with the count of the accepted
lifts. Only a crash cuts this short. -/
inductive Lifting (lifted : Nat) (fingers : List Finger) : Trace → Except Stop Unit → Prop
  | finished (verdicts : List Verdict) :
      verdicts.length = fingers.length → .crashed ∉ verdicts →
      Lifting lifted fingers (Trace.lifts fingers verdicts)
        (.error (.fault (.cancelled (lifted + verdicts.count .accepted))))
  | crashed (verdicts : List Verdict) :
      verdicts.length < fingers.length → .crashed ∉ verdicts →
      Lifting lifted fingers (Trace.lifts fingers (verdicts ++ [.crashed])) (.error .crash)

/-- The traces and endings of following a script: all of it is done; or it is cut after a touch that
is not accepted, which ends the run at once; or it is cut after a sleep that the token is raised by,
and then the fingers are lifted. -/
inductive Passage (fingers : List Finger) (script : List Act) : Trace → Except Stop Unit → Prop
  | completed : Passage fingers script (script.flatMap Act.passed) (.ok ())
  | stopped (done : List Act) (e : TouchEvent) (verdict : Verdict) (stop : Stop) :
      done ++ [.touch e] <+: script → verdict.stop? = some stop →
      Passage fingers script (done.flatMap Act.passed ++ [.touched e verdict]) (.error stop)
  | cancelled (done : List Act) (span : Span) (lifts : Trace) (ending : Except Stop Unit) :
      done ++ [.sleep span] <+: script → Lifting 0 fingers lifts ending →
      Passage fingers script
        (done.flatMap Act.passed ++ [.slept span, .looked true] ++ lifts) ending

/-- The traces and endings of a run that looks at the token first: a raised token ends it before
anything is done. -/
inductive Course (fingers : List Finger) (script : List Act) : Trace → Except Stop Unit → Prop
  | withheld : Course fingers script [.looked true] (.error (.fault (.cancelled 0)))
  | begun (trace : Trace) (ending : Except Stop Unit) :
      Passage fingers script trace ending → Course fingers script (.looked false :: trace) ending

theorem Verdict.stop?_eq_none {verdict : Verdict} (accepted : verdict.stop? = none) :
    verdict = .accepted := by
  cases verdict with
  | accepted => rfl
  | rejected refusal => cases accepted
  | crashed => cases accepted

theorem Passage.cons {fingers : List Finger} {script : List Act} {trace : Trace}
    {ending : Except Stop Unit} (act : Act) (passage : Passage fingers script trace ending) :
    Passage fingers (act :: script) (act.passed ++ trace) ending := by
  cases passage with
  | completed =>
      rw [← List.flatMap_cons]
      exact .completed
  | stopped done e verdict stop cut refused =>
      rw [← List.append_assoc, ← List.flatMap_cons]
      exact .stopped (act :: done) e verdict stop (List.cons_prefix_cons.mpr ⟨rfl, cut⟩) refused
  | cancelled done span lifts ending cut lifting =>
      rw [← List.append_assoc, ← List.append_assoc, ← List.flatMap_cons]
      exact .cancelled (act :: done) span lifts ending
        (List.cons_prefix_cons.mpr ⟨rfl, cut⟩) lifting

theorem Lifting.accepted {lifted : Nat} {fingers : List Finger} {trace : Trace}
    {ending : Except Stop Unit} (f : Finger) (lifting : Lifting (lifted + 1) fingers trace ending) :
    Lifting lifted (f :: fingers) (.touched (.up f) .accepted :: trace) ending := by
  cases lifting with
  | finished verdicts length sound =>
      have total : lifted + 1 + verdicts.count .accepted =
          lifted + (Verdict.accepted :: verdicts).count .accepted := by
        rw [List.count_cons_self]
        omega
      rw [total]
      exact .finished (.accepted :: verdicts) (by simp [length]) (by simp [sound])
  | crashed verdicts length sound =>
      exact .crashed (.accepted :: verdicts) (by simpa using length) (by simp [sound])

theorem Lifting.rejected {lifted : Nat} {fingers : List Finger} {trace : Trace}
    {ending : Except Stop Unit} (f : Finger) (refusal : Refusal)
    (lifting : Lifting lifted fingers trace ending) :
    Lifting lifted (f :: fingers) (.touched (.up f) (.rejected refusal) :: trace) ending := by
  cases lifting with
  | finished verdicts length sound =>
      rw [← List.count_cons_of_ne (b := Verdict.rejected refusal) (by simp) (l := verdicts)]
      exact .finished (.rejected refusal :: verdicts) (by simp [length]) (by simp [sound])
  | crashed verdicts length sound =>
      exact .crashed (.rejected refusal :: verdicts) (by simpa using length) (by simp [sound])

theorem Lifting.ending_ne_ok {lifted : Nat} {fingers : List Finger} {trace : Trace}
    {ending : Except Stop Unit} (lifting : Lifting lifted fingers trace ending) :
    ending ≠ .ok () := by
  cases lifting <;> exact nofun

/-- Wherever a script is cut, what is read up to there was told by the script, and lifts alone
follow. All of it is told where nothing is cut. -/
theorem Passage.observed {α : Type} {read : Entry → Option α} {tell : Act → Option α}
    (observes : Observes read tell) {fingers : List Finger} {script : List Act} {trace : Trace}
    {ending : Except Stop Unit} (passage : Passage fingers script trace ending) :
    ∃ front lifts, trace = front ++ lifts ∧
      (lifts = [] ∧ (∀ count, ending ≠ .error (.fault (.cancelled count))) ∨
        Lifting 0 fingers lifts ending) ∧
      front.filterMap read <+: script.filterMap tell ∧
      (ending = .ok () → front.filterMap read = script.filterMap tell) := by
  cases passage with
  | completed =>
      refine ⟨_, [], (List.append_nil _).symm, .inl ⟨rfl, nofun⟩, ?_⟩
      rw [observes.filterMap_passed]
      exact ⟨List.prefix_rfl, fun _ => rfl⟩
  | stopped done e verdict stop cut refused =>
      refine ⟨_, [], (List.append_nil _).symm, .inl ⟨rfl, ?_⟩, ?_, nofun⟩
      · rintro count ⟨⟩
        cases verdict <;> cases refused
      · rw [List.filterMap_append, observes.filterMap_passed, observes.filterMap_touched,
          ← List.filterMap_append]
        exact cut.filterMap tell
  | cancelled done span lifts _ cut lifting =>
      refine ⟨_, lifts, rfl, .inr lifting, ?_, fun went => absurd went lifting.ending_ne_ok⟩
      rw [List.filterMap_append, observes.filterMap_passed, observes.filterMap_slept,
        ← List.filterMap_append]
      exact cut.filterMap tell

namespace Rig

variable {σ : Type} (r : Rig σ)

theorem traced_touch (e : TouchEvent) (s : σ) (trace : Trace) :
    r.traced.touch e (s, trace) =
      ((r.touch e s).1, (r.touch e s).2, trace ++ [.touched e (r.touch e s).1]) := rfl

theorem traced_sleep (span : Span) (s : σ) (trace : Trace) :
    r.traced.sleep span (s, trace) = ((), (r.sleep span s).2, trace ++ [.slept span]) := rfl

theorem traced_cancelled (s : σ) (trace : Trace) :
    r.traced.cancelled (s, trace) =
      ((r.cancelled s).1, (r.cancelled s).2, trace ++ [.looked (r.cancelled s).1]) := rfl

theorem traced_note (n : Note) (s : σ) (trace : Trace) :
    r.traced.note n (s, trace) = ((), (r.note n s).2, trace) := rfl

theorem liftAll_traced (lifted : Nat) (fingers : List Finger) (s : σ) (trace : Trace) :
    ∃ lifts ending t,
      (r.traced.liftAll lifted fingers).on (s, trace) = (ending, t, trace ++ lifts) ∧
      (r.liftAll lifted fingers).on s = (ending, t) ∧ Lifting lifted fingers lifts ending := by
  induction fingers generalizing lifted s trace with
  | nil =>
      refine ⟨[], _, _, ?_, r.on_liftAll_nil lifted s, .finished [] rfl (by simp)⟩
      rw [List.append_nil]
      rfl
  | cons f rest ih =>
      rw [on_liftAll_cons, on_liftAll_cons, traced_touch]
      cases (r.touch (.up f) s).1 with
      | accepted =>
          obtain ⟨lifts, ending, t, record, run, lifting⟩ :=
            ih (lifted + 1) (r.touch (.up f) s).2
            (trace ++ [.touched (.up f) .accepted])
          exact ⟨_, ending, t, record.trans (by simp), run, lifting.accepted f⟩
      | rejected refusal =>
          obtain ⟨lifts, ending, t, record, run, lifting⟩ := ih lifted
            (r.note (.liftFailed f refusal) (r.touch (.up f) s).2).2
            (trace ++ [.touched (.up f) (.rejected refusal)])
          exact ⟨_, ending, t, record.trans (by simp), run, lifting.rejected f refusal⟩
      | crashed =>
          have cut : Trace.lifts (f :: rest) ([] ++ [.crashed]) = [.touched (.up f) .crashed] := by
            simp [Trace.lifts]
          exact ⟨_, _, _, rfl, rfl, cut ▸ .crashed [] (by simp) (by simp)⟩

theorem follow_traced (fingers : List Finger) (script : List Act) (s : σ) (trace : Trace) :
    ∃ steps ending t,
      (r.traced.follow fingers script).on (s, trace) = (ending, t, trace ++ steps) ∧
      (r.follow fingers script).on s = (ending, t) ∧ Passage fingers script steps ending := by
  induction script generalizing s trace with
  | nil => exact ⟨[], .ok (), s, by simp, rfl, .completed⟩
  | cons act rest ih =>
      cases act with
      | touch e =>
          rw [on_follow_touch, on_follow_touch, traced_touch]
          cases answer : (r.touch e s).1.stop? with
          | none =>
              rw [Verdict.stop?_eq_none answer]
              obtain ⟨steps, ending, t, record, run, passage⟩ := ih (r.touch e s).2
                (trace ++ [.touched e .accepted])
              exact ⟨_, ending, t, record.trans (by simp [Act.passed]), run,
                passage.cons (.touch e)⟩
          | some stop =>
              exact ⟨_, _, _, rfl, rfl, .stopped [] e _ stop (by simp) answer⟩
      | sleep span =>
          rw [on_follow_sleep, on_follow_sleep, traced_sleep, traced_cancelled]
          rcases r.cancelled (r.sleep span s).2 with ⟨raised | raised, u⟩
          · obtain ⟨steps, ending, t, record, run, passage⟩ := ih u
              (trace ++ [.slept span, .looked false])
            refine ⟨_, ending, t, ?_, run, passage.cons (.sleep span)⟩
            simpa [Act.passed] using record
          · obtain ⟨lifts, ending, t, record, run, lifting⟩ := r.liftAll_traced 0 fingers u
              (trace ++ [.slept span, .looked true])
            refine ⟨_, ending, t, ?_, run, .cancelled [] span lifts ending (by simp) lifting⟩
            simpa using record

/-- Carrying out a plan on any rig. The device, the time source and the token may answer in any way,
at any time; what is done is one of the courses of the plan's script. -/
theorem execute_traced (p : Plan Float) (s : σ) :
    ∃ trace ending t,
      (r.traced.execute p).on (s, []) = (ending, t, trace) ∧
      (r.execute p).on s = (ending, t) ∧ Course p.fingerNames p.script trace ending := by
  rw [on_execute, on_execute, traced_cancelled]
  rcases r.cancelled s with ⟨raised | raised, u⟩
  · obtain ⟨steps, ending, t, record, run, passage⟩ := r.follow_traced p.fingerNames p.script
      (r.note (.gestureStart p.fingers.toNat p.steps.toNat (UInt64.ofNat p.pause.microseconds)) u).2
      [.looked false]
    refine ⟨.looked false :: steps, ending, ?_⟩
    simp only [Run.on_bind, traced_note, List.nil_append, record, run]
    cases ending with
    | ok => exact ⟨_, rfl, rfl, .begun steps _ passage⟩
    | error stop => exact ⟨_, rfl, rfl, .begun steps _ passage⟩
  · exact ⟨[.looked true], _, _, rfl, rfl, .withheld⟩

theorem tap_traced {point : Position} (finite : point.isFinite) (hold : Span) (s : σ) :
    ∃ trace ending t,
      (r.traced.tap point hold).on (s, []) = (ending, t, trace) ∧
      (r.tap point hold).on s = (ending, t) ∧
      Course [⟨0⟩] (Act.tap point hold) trace ending := by
  rw [on_tap _ finite, on_tap _ finite, traced_cancelled]
  rcases r.cancelled s with ⟨raised | raised, u⟩
  · obtain ⟨steps, ending, t, record, run, passage⟩ :=
      r.follow_traced [⟨0⟩] (Act.tap point hold)
      (r.note (.tap point) u).2 [.looked false]
    exact ⟨_, ending, t, record, run, .begun steps ending passage⟩
  · exact ⟨[.looked true], _, _, rfl, rfl, .withheld⟩

theorem execute_withheld {s : σ} (raised : (r.cancelled s).1 = true) (p : Plan Float) :
    (r.execute p).on s = (.error (.fault (.cancelled 0)), (r.cancelled s).2) ∧
      (r.traced.execute p).on (s, []) =
        (.error (.fault (.cancelled 0)), (r.cancelled s).2, [.looked true]) := by
  have looked : r.cancelled s = (true, (r.cancelled s).2) := Prod.ext raised rfl
  rw [on_execute, on_execute, traced_cancelled, looked]
  exact ⟨rfl, rfl⟩

theorem tap_withheld {s : σ} (raised : (r.cancelled s).1 = true) {point : Position}
    (finite : point.isFinite) (hold : Span) :
    (r.tap point hold).on s = (.error (.fault (.cancelled 0)), (r.cancelled s).2) ∧
      (r.traced.tap point hold).on (s, []) =
        (.error (.fault (.cancelled 0)), (r.cancelled s).2, [.looked true]) := by
  have looked : r.cancelled s = (true, (r.cancelled s).2) := Prod.ext raised rfl
  rw [on_tap _ finite, on_tap _ finite, traced_cancelled, looked]
  exact ⟨rfl, rfl⟩

end Rig

end TouchGesture
