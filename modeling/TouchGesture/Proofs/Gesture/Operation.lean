import TouchGesture.Gesture.Engine
import TouchGesture.Proofs.Gesture.Visit

/-! All that a caller can ask of an engine, and what it comes down to on a panel. -/

namespace TouchGesture

inductive Operation where
  | pinch (center vectorStart vectorEnd : Position)
  | pinchWith (g : Pinch Float)
  | paths (starts ends : List Position)
  | pathsWith (g : Paths Float)
  | drag (start target : Position)
  | tap (point : Position)
  | execute (p : Plan Float) (made : p.Made)

inductive Task where
  | tap (point : Position) (hold : Span)
  | planned (plan : Except (PlanFault Float) (Plan Float))

def Task.Valid : Task → Prop
  | .tap point _ => point.isFinite
  | .planned plan => ∃ p, plan = .ok p

def Rig.carryOut {σ : Type} (r : Rig σ) : Task → Run σ Unit
  | .tap point hold => r.tap point hold
  | .planned plan => r.executePlanned plan

namespace Rig

variable {σ : Type} {r : Rig σ} {s : σ} {task : Task}

theorem carryOut_invalid (invalid : ¬ task.Valid) :
    ∃ fault, (r.carryOut task).on s = (.error (.fault (.invalidArgument fault)), s) := by
  cases task with
  | tap point hold => exact ⟨_, r.on_tap_refused invalid hold s⟩
  | planned plan =>
      cases plan with
      | ok p => exact absurd ⟨p, rfl⟩ invalid
      | error fault => exact ⟨.plan fault, rfl⟩

theorem carryOut_withheld (valid : task.Valid) (raised : (r.cancelled s).1 = true) :
    (r.carryOut task).on s = (.error (.fault (.cancelled 0)), (r.cancelled s).2) := by
  cases task with
  | tap point hold => exact (r.tap_withheld raised valid hold).1
  | planned plan =>
      obtain ⟨p, rfl⟩ := valid
      exact (r.execute_withheld raised p).1

theorem Keeps.carryOut {Inv : σ → Prop} (keeps : r.Keeps Inv) (task : Task) (start : Inv s) :
    Inv ((r.carryOut task).on s).2 := by
  cases task with
  | tap point hold => exact keeps.tap point hold start
  | planned plan =>
      cases plan with
      | ok p => exact keeps.execute p start
      | error fault => exact start

end Rig

namespace Operation

def perform {σ : Type} (e : Engine σ) : Operation → Run σ Unit
  | .pinch center vectorStart vectorEnd => e.pinch center vectorStart vectorEnd
  | .pinchWith g => e.rig.pinch g
  | .paths starts ends => e.followPaths starts ends
  | .pathsWith g => e.rig.followPaths g
  | .drag start target => e.drag start target
  | .tap point => e.tap point
  | .execute p _ => e.rig.execute p

def fingers : Operation → Nat
  | .pinch .. | .pinchWith _ => 2
  | .paths starts _ => starts.length
  | .pathsWith g => g.starts.length
  | .drag .. | .tap _ => 1
  | .execute p _ => p.fingers.toNat

def task (settings : Settings) : Operation → Task
  | .pinch center vectorStart vectorEnd =>
      .planned (Pinch.ofSettings settings center vectorStart vectorEnd).plan
  | .pinchWith g => .planned g.plan
  | .paths starts ends =>
      .planned (Paths.plan ⟨starts, ends, settings.steps, settings.stepDelay⟩)
  | .pathsWith g => .planned g.plan
  | .drag start target =>
      .planned (Paths.plan ⟨[start], [target], settings.dragSteps, settings.dragStepDelay⟩)
  | .tap point => .tap point settings.tapHold
  | .execute p _ => .planned (.ok p)

def Valid (settings : Settings) (op : Operation) : Prop := (op.task settings).Valid

theorem fingers_of_pinch {g : Pinch Float} {p : Plan Float} (made : g.plan = .ok p) :
    p.fingers.toNat = 2 := by
  obtain ⟨-, -, -, -, -, -, rfl⟩ := Pinch.plan_eq_ok.mp made
  rfl

theorem fingers_of_paths {g : Paths Float} {p : Plan Float} (made : g.plan = .ok p) :
    p.fingers.toNat = g.starts.length := by
  obtain ⟨-, -, few, -, -, -, rfl⟩ := Paths.plan_eq_ok.mp made
  exact UInt32.toNat_ofNat_of_lt few

theorem made_of_task {settings : Settings} {op : Operation} {p : Plan Float}
    (planned : op.task settings = .planned (.ok p)) : p.Made ∧ p.fingers.toNat = op.fingers := by
  cases op with
  | pinch center vectorStart vectorEnd =>
      have made := Task.planned.inj planned
      exact ⟨.inl ⟨_, made⟩, fingers_of_pinch made⟩
  | pinchWith g =>
      have made := Task.planned.inj planned
      exact ⟨.inl ⟨g, made⟩, fingers_of_pinch made⟩
  | paths starts ends =>
      have made := Task.planned.inj planned
      exact ⟨.inr ⟨_, made⟩, fingers_of_paths made⟩
  | pathsWith g =>
      have made := Task.planned.inj planned
      exact ⟨.inr ⟨g, made⟩, fingers_of_paths made⟩
  | drag start target =>
      have made := Task.planned.inj planned
      exact ⟨.inr ⟨_, made⟩, fingers_of_paths made⟩
  | tap point => cases planned
  | execute plan made =>
      cases planned
      exact ⟨made, rfl⟩

/-- How an operation ends on a panel, and the panel that it leaves: its arguments are not in order,
or the token is raised, or its fingers come. -/
inductive Served (settings : Settings) (raised : Bool) (op : Operation) (p : Panel) :
    Except Stop Unit → Panel → Prop
  | invalid (fault : ArgumentFault) : ¬ op.Valid settings →
      Served settings raised op p (.error (.fault (.invalidArgument fault))) p
  | withheld : op.Valid settings → raised = true →
      Served settings raised op p (.error (.fault (.cancelled 0))) p
  | visited {n : UInt32} {spots : List Position} {ending : Except Stop Unit} {q : Panel} :
      op.Valid settings → raised = false → n ≠ 0 → n.toNat = op.fingers →
      p.Visit (Finger.first n) spots ending q → Served settings raised op p ending q

section Panels

variable {τ : Type} (sleep : Span → τ → τ) (cancelled : τ → Bool × τ)
  (settings : Settings)
  (op : Operation) (c : τ) {max : Nat} {p : Panel}

theorem perform_eq_carryOut :
    op.perform ⟨Panel.device.rig sleep cancelled, settings⟩ =
      (Panel.device.rig sleep cancelled).carryOut (op.task settings) := by
  cases op <;> rfl

theorem perform_reachable (reached : p.Reachable max) :
    ((op.perform ⟨Panel.device.rig sleep cancelled, settings⟩).on
      (p, c)).2.1.Reachable max := by
  rw [perform_eq_carryOut]
  have hosts := Panel.device.rig_hosts sleep cancelled
  exact (hosts.keeps fun e _ => Panel.Reachable.touch e).carryOut _ reached

theorem perform_visit (sound : p.Sound max) (valid : op.Valid settings)
    (calm : (cancelled c).1 = false) :
    ∃ (n : UInt32) (spots : List Position) (ending : Except Stop Unit) (q : Panel) (c' : τ),
      (op.perform ⟨Panel.device.rig sleep cancelled, settings⟩).on (p, c) = (ending, q, c') ∧
      n ≠ 0 ∧ n.toNat = op.fingers ∧ p.Visit (Finger.first n) spots ending q := by
  have hosts := Panel.device.rig_hosts sleep cancelled
  rw [perform_eq_carryOut]
  rw [Valid] at valid
  cases given : op.task settings with
  | tap point hold =>
      rw [given] at valid
      obtain ⟨ending, ⟨q, c'⟩, run, visit⟩ :=
        hosts.tap_visit (s := (p, c)) sound valid hold calm
      refine ⟨1, _, ending, q, c', run, by decide, ?_, visit⟩
      cases op <;> cases given
      rfl
  | planned plan =>
      rw [given] at valid
      obtain ⟨plan, rfl⟩ := valid
      obtain ⟨made, count⟩ := made_of_task given
      obtain ⟨ending, ⟨q, c'⟩, run, visit⟩ :=
        hosts.execute_visit (s := (p, c)) sound made.aligned calm
      exact ⟨plan.fingers, _, ending, q, c', run, made.aligned.fingers_ne, count, visit⟩

theorem perform_served (sound : p.Sound max) :
    ∃ ending q c',
      (op.perform ⟨Panel.device.rig sleep cancelled, settings⟩).on (p, c) = (ending, q, c') ∧
      Served settings (cancelled c).1 op p ending q := by
  by_cases valid : op.Valid settings
  · cases raised : (cancelled c).1 with
    | true =>
        refine ⟨_, p, (cancelled c).2, ?_, .withheld valid rfl⟩
        rw [perform_eq_carryOut]
        exact Rig.carryOut_withheld valid raised
    | false =>
        obtain ⟨n, spots, ending, q, c', run, positive, count, visit⟩ :=
          op.perform_visit sleep cancelled settings c sound valid raised
        exact ⟨ending, q, c', run, .visited valid rfl positive count visit⟩
  · rw [perform_eq_carryOut]
    obtain ⟨fault, run⟩ := Rig.carryOut_invalid valid
    exact ⟨_, p, c, run, .invalid fault valid⟩

theorem valid_iff (sound : p.Sound max) :
    op.Valid settings ↔
      ∀ fault, ((op.perform ⟨Panel.device.rig sleep cancelled, settings⟩).on (p, c)).1 ≠
        .error (.fault (.invalidArgument fault)) := by
  obtain ⟨ending, q, c', run, served⟩ := op.perform_served sleep cancelled settings c sound
  rw [run]
  cases served with
  | invalid fault invalid =>
      exact ⟨fun valid => absurd valid invalid, fun silent => absurd rfl (silent fault)⟩
  | withheld valid _ => exact ⟨fun _ => nofun, fun _ => valid⟩
  | visited valid _ _ _ visit =>
      refine ⟨fun _ fault => ?_, fun _ => valid⟩
      cases visit <;> exact nofun

end Panels

end Operation

end TouchGesture
