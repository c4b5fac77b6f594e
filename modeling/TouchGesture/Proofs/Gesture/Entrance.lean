import TouchGesture.Proofs.Gesture.Operation

/-! Every way into a gesture, and which of its faults leave the device alone. -/

namespace TouchGesture

/-- A run that has made a touch, and that no longer ends with a fault which promises that it has
not. -/
structure Begun (trace : Trace) (ending : Except Stop Unit) : Prop where
  touches : ∃ e verdict, .touched e verdict ∈ trace
  late : ∀ fault, ending = .error (.fault fault) → fault.isSideEffectFree = false

section Courses

variable {e : TouchEvent} {rest : List Act} {fingers : List Finger} {trace : Trace}
  {ending : Except Stop Unit}

theorem Begun.cons (begun : Begun trace ending) (entry : Entry) :
    Begun (entry :: trace) ending := by
  obtain ⟨⟨first, verdict, member⟩, late⟩ := begun
  exact ⟨⟨first, verdict, List.mem_cons_of_mem _ member⟩, late⟩

theorem Verdict.late {verdict : Verdict} {stop : Stop} (refused : verdict.stop? = some stop)
    (fault : GestureFault) (same : (.error stop : Except Stop Unit) = .error (.fault fault)) :
    fault.isSideEffectFree = false := by
  obtain rfl := Except.error.inj same
  cases verdict with
  | accepted => cases refused
  | rejected refusal =>
      cases refused
      rfl
  | crashed => cases refused

theorem Lifting.late {lifted : Nat} (lifting : Lifting lifted fingers trace ending)
    (fault : GestureFault) (same : ending = .error (.fault fault)) :
    fault.isSideEffectFree = false := by
  cases lifting with
  | finished =>
      cases same
      rfl
  | crashed => cases same

theorem touch_before_sleep {done : List Act} {span : Span}
    (cut : done ++ [.sleep span] <+: .touch e :: rest) : ∃ later, done = .touch e :: later := by
  cases done with
  | nil => simp at cut
  | cons act later =>
      obtain ⟨rfl, -⟩ := List.cons_prefix_cons.mp cut
      exact ⟨later, rfl⟩

theorem Passage.begun (passage : Passage fingers (.touch e :: rest) trace ending) :
    Begun trace ending := by
  cases passage with
  | completed => exact ⟨⟨e, .accepted, by simp [Act.passed]⟩, nofun⟩
  | stopped done last verdict stop _ refused =>
      exact ⟨⟨last, verdict, by simp⟩, Verdict.late refused⟩
  | cancelled done span lifts _ cut lifting =>
      obtain ⟨later, rfl⟩ := touch_before_sleep cut
      exact ⟨⟨e, .accepted, by simp [Act.passed]⟩, lifting.late⟩

theorem Drive.begun (drive : Drive (.touch e :: rest) trace ending) : Begun trace ending := by
  cases drive with
  | completed => exact ⟨⟨e, .accepted, by simp [Act.granted]⟩, nofun⟩
  | stopped done last verdict stop _ refused =>
      exact ⟨⟨last, verdict, by simp⟩, Verdict.late refused⟩

end Courses

theorem Plan.Aligned.script_touches {p : Plan Float} (aligned : p.Aligned) :
    ∃ e rest, p.script = .touch e :: rest := by
  have count : p.downs.length = p.fingers.toNat := by
    rw [downs, List.length_zipWith, ← aligned.length_fingerNames, Nat.min_self,
      p.length_fingerNames]
  have positive : p.fingers.toNat ≠ 0 := fun none =>
    aligned.fingers_ne (UInt32.toNat_inj.mp none)
  cases pressed : p.downs with
  | nil =>
      rw [pressed] at count
      exact absurd count.symm positive
  | cons e rest =>
      rw [script, through, pressed]
      exact ⟨e, _, rfl⟩

def Task.fault? : Task → Option ArgumentFault
  | .tap point _ => if point.isFinite then none else some (.tapPoint point)
  | .planned (.error fault) => some (.plan fault)
  | .planned (.ok _) => none

/-- How a task goes: its arguments are at fault and nothing is done, or the token is raised before
anything is done, or a touch is made. -/
inductive Task.Entered {σ : Type} (task : Task) (s : σ) :
    Trace → Except Stop Unit → σ → Prop
  | refused (fault : ArgumentFault) : task.fault? = some fault →
      Entered task s [] (.error (.fault (.invalidArgument fault))) s
  | withheld (t : σ) : task.fault? = none →
      Entered task s [.looked true] (.error (.fault (.cancelled 0))) t
  | begun {trace : Trace} {ending : Except Stop Unit} (t : σ) : task.fault? = none →
      Begun trace ending → Entered task s trace ending t

namespace Task.Entered

variable {σ : Type} {task : Task} {s t : σ} {trace : Trace} {ending : Except Stop Unit}

theorem invalid_iff (entered : task.Entered s trace ending t) (fault : ArgumentFault) :
    ending = .error (.fault (.invalidArgument fault)) ↔ task.fault? = some fault := by
  cases entered with
  | refused fault given =>
      rw [given]
      simp
  | withheld _ sound => simp [sound]
  | begun _ sound begun =>
      rw [sound]
      refine ⟨fun same => ?_, nofun⟩
      cases begun.late _ same

theorem untouched (entered : task.Entered s trace ending t) (faulty : task.fault? ≠ none) :
    trace = [] ∧ t = s := by
  cases entered with
  | refused fault given => exact ⟨rfl, rfl⟩
  | withheld _ sound => exact absurd sound faulty
  | begun _ sound begun => exact absurd sound faulty

theorem free (entered : task.Entered s trace ending t) (fault : GestureFault)
    (same : ending = .error (.fault fault)) (free : fault.isSideEffectFree) : trace = [] := by
  cases entered with
  | refused fault given => rfl
  | withheld _ sound =>
      cases same
      cases free
  | begun _ sound begun =>
      rw [begun.late fault same] at free
      cases free

theorem late (entered : task.Entered s trace ending t) (stop : Stop) (same : ending = .error stop) :
    (∃ fault, stop = .fault (.invalidArgument fault)) ∨
      (trace = [.looked true] ∧ stop = .fault (.cancelled 0)) ∨
      ∃ e verdict, .touched e verdict ∈ trace := by
  cases entered with
  | refused fault given =>
      cases same
      exact .inl ⟨fault, rfl⟩
  | withheld _ sound =>
      cases same
      exact .inr (.inl ⟨rfl, rfl⟩)
  | begun _ sound begun => exact .inr (.inr begun.touches)

end Task.Entered

namespace Rig

variable {σ : Type} (r : Rig σ)

def under (watched : Bool) : Rig σ := if watched then r else r.unwatched

theorem execute_entered (watched : Bool) {p : Plan Float} (aligned : p.Aligned) (s : σ) :
    ∃ trace ending t,
      ((r.traced.under watched).execute p).on (s, []) = (ending, t, trace) ∧
      ((r.under watched).execute p).on s = (ending, t) ∧
      (Task.planned (.ok p)).Entered s trace ending t := by
  obtain ⟨e, rest, script⟩ := aligned.script_touches
  cases watched with
  | true =>
      obtain ⟨trace, ending, t, record, run, course⟩ := r.execute_traced p s
      refine ⟨trace, ending, t, record, run, ?_⟩
      rw [script] at course
      cases course with
      | withheld => exact .withheld t rfl
      | begun steps _ passage => exact .begun t rfl (passage.begun.cons _)
  | false =>
      obtain ⟨trace, ending, t, record, run, drive⟩ := r.execute_unwatched p s
      rw [script] at drive
      exact ⟨trace, ending, t, record, run, .begun t rfl drive.begun⟩

theorem tap_entered (watched : Bool) (point : Position) (hold : Span) (s : σ) :
    ∃ trace ending t,
      ((r.traced.under watched).tap point hold).on (s, []) = (ending, t, trace) ∧
      ((r.under watched).tap point hold).on s = (ending, t) ∧
      (Task.tap point hold).Entered s trace ending t := by
  by_cases finite : point.isFinite
  · have sound : (Task.tap point hold).fault? = none := if_pos finite
    cases watched with
    | true =>
        obtain ⟨trace, ending, t, record, run, course⟩ := r.tap_traced finite hold s
        refine ⟨trace, ending, t, record, run, ?_⟩
        cases course with
        | withheld => exact .withheld t sound
        | begun steps _ passage => exact .begun t sound (passage.begun.cons _)
    | false =>
        obtain ⟨trace, ending, t, record, run, drive⟩ := r.tap_unwatched finite hold s
        exact ⟨trace, ending, t, record, run, .begun t sound drive.begun⟩
  · have fault : (Task.tap point hold).fault? = some (.tapPoint point) := if_neg finite
    exact ⟨[], _, s, on_tap_refused _ finite hold _, on_tap_refused _ finite hold s,
      .refused _ fault⟩

theorem carryOut_entered (watched : Bool) {task : Task}
    (aligned : ∀ p, task = .planned (.ok p) → p.Aligned) (s : σ) :
    ∃ trace ending t,
      ((r.traced.under watched).carryOut task).on (s, []) = (ending, t, trace) ∧
      ((r.under watched).carryOut task).on s = (ending, t) ∧ task.Entered s trace ending t := by
  cases task with
  | tap point hold => exact r.tap_entered watched point hold s
  | planned plan =>
      cases plan with
      | error fault => exact ⟨[], _, s, rfl, rfl, .refused (.plan fault) rfl⟩
      | ok p => exact r.execute_entered watched (aligned p rfl) s

def announce : Option Note → σ → σ
  | none, s => s
  | some n, s => (r.note n s).2

theorem announce_quiet {α : Type} {view : σ → α}
    (quiet : ∀ n u, view (r.note n u).2 = view u) (watched : Bool) (n : Option Note) (s : σ) :
    view ((r.under watched).announce n s) = view s := by
  cases n with
  | none => rfl
  | some n => cases watched <;> exact quiet n s

theorem traced_announce (watched : Bool) (n : Option Note) (s : σ) :
    (r.traced.under watched).announce n (s, []) = ((r.under watched).announce n s, []) := by
  cases n <;> cases watched <;> rfl

end Rig

def Operation.notice : Operation → Option Note
  | .drag start target => some (.drag start target)
  | _ => none

theorem Operation.on_perform {σ : Type} (e : Engine σ) (op : Operation) (s : σ) :
    (op.perform e).on s = (e.rig.carryOut (op.task e.settings)).on
      (e.rig.announce op.notice s) := by
  cases op <;> rfl

/-- The ways into a gesture. The token is left out of the first two; a tap and an engine have one or
not. -/
inductive Entrance where
  | pinch (g : Pinch Float)
  | paths (g : Paths Float)
  | tap (watched : Bool) (point : Position) (hold : Span)
  | engine (watched : Bool) (op : Operation)

namespace Entrance

variable {σ : Type}

def perform (e : Engine σ) : Entrance → Run σ Unit
  | .pinch g => e.rig.unwatched.pinch g
  | .paths g => e.rig.unwatched.followPaths g
  | .tap watched point hold => (e.rig.under watched).tap point hold
  | .engine watched op => op.perform { e with rig := e.rig.under watched }

def task (settings : Settings) : Entrance → Task
  | .pinch g => .planned g.plan
  | .paths g => .planned g.plan
  | .tap _ point hold => .tap point hold
  | .engine _ op => op.task settings

def watched : Entrance → Bool
  | .pinch _ | .paths _ => false
  | .tap watched _ _ | .engine watched _ => watched

def notice : Entrance → Option Note
  | .engine _ op => op.notice
  | _ => none

theorem on_perform (e : Engine σ) (entrance : Entrance) (s : σ) :
    (entrance.perform e).on s =
      ((e.rig.under entrance.watched).carryOut (entrance.task e.settings)).on
        ((e.rig.under entrance.watched).announce entrance.notice s) := by
  cases entrance with
  | pinch g => rfl
  | paths g => rfl
  | tap watched point hold => rfl
  | engine watched op => exact op.on_perform _ s

theorem aligned_of_task {settings : Settings} {entrance : Entrance} {p : Plan Float}
    (planned : entrance.task settings = .planned (.ok p)) : p.Aligned := by
  cases entrance with
  | pinch g => exact g.plan_aligned (Task.planned.inj planned)
  | paths g => exact g.plan_aligned (Task.planned.inj planned)
  | tap watched point hold => cases planned
  | engine watched op => exact (op.made_of_task planned).1.aligned

theorem perform_entered (r : Rig σ) (settings : Settings) (entrance : Entrance) (s : σ) :
    ∃ trace ending t,
      (entrance.perform ⟨r.traced, settings⟩).on (s, []) = (ending, t, trace) ∧
      (entrance.perform ⟨r, settings⟩).on s = (ending, t) ∧
      (entrance.task settings).Entered ((r.under entrance.watched).announce entrance.notice s)
        trace ending t := by
  rw [on_perform, on_perform, Rig.traced_announce]
  exact r.carryOut_entered entrance.watched (fun p => aligned_of_task) _

/-- Whatever the device, the time source and the token answer, a gesture ends with a fault of its
arguments exactly when there is one, and then it has not touched, slept or looked at the token. A
fault that promises as much keeps its promise, and every other ending but a token that is raised
from the start comes after a touch. -/
theorem perform_faults (r : Rig σ) (settings : Settings) (entrance : Entrance) (s : σ) :
    ∃ trace ending t,
      (entrance.perform ⟨r.traced, settings⟩).on (s, []) = (ending, t, trace) ∧
      (entrance.perform ⟨r, settings⟩).on s = (ending, t) ∧
      (∀ fault, ending = .error (.fault (.invalidArgument fault)) ↔
        (entrance.task settings).fault? = some fault) ∧
      ((entrance.task settings).fault? ≠ none →
        trace = [] ∧
          ∀ {α : Type} (view : σ → α), (∀ n u, view (r.note n u).2 = view u) →
            view t = view s) ∧
      (∀ fault, ending = .error (.fault fault) → fault.isSideEffectFree → trace = []) ∧
      ∀ stop, ending = .error stop →
        (∃ fault, stop = .fault (.invalidArgument fault)) ∨
          (trace = [.looked true] ∧ stop = .fault (.cancelled 0)) ∨
          ∃ e verdict, .touched e verdict ∈ trace := by
  obtain ⟨trace, ending, t, record, run, entered⟩ := entrance.perform_entered r settings s
  refine ⟨trace, ending, t, record, run, entered.invalid_iff, fun faulty => ?_, entered.free,
    entered.late⟩
  obtain ⟨silent, rfl⟩ := entered.untouched faulty
  exact ⟨silent, fun view quiet => r.announce_quiet quiet _ _ s⟩

end Entrance

end TouchGesture
