import TouchGesture.Proofs.Preview.Bench

/-! What a preview says: when it fails, and what it reports. -/

namespace TouchGesture

namespace Settings

variable (c : Settings)

def pinchFor (center vectorStart vectorEnd : Position) (steps : Option UInt32)
    (delayMs : Option UInt64) : Pinch Float :=
  ⟨center, vectorStart, vectorEnd, steps.getD c.steps,
    (delayMs.map Span.ofMilliseconds).getD c.stepDelay⟩

def dragFor (start target : Position) (steps : Option UInt32) (delayMs : Option UInt64) :
    Paths Float :=
  ⟨[start], [target], steps.getD c.dragSteps,
    (delayMs.map Span.ofMilliseconds).getD c.dragStepDelay⟩

def holdFor (holdMs : Option UInt64) : Span := (holdMs.map Span.ofMilliseconds).getD c.tapHold

theorem validate_eq_ok :
    c.validate = .ok () ↔ c.steps ≠ 0 ∧ c.dragSteps ≠ 0 ∧ c.maxFingers ≠ 0 := by
  rw [validate, guard_eq_ok, guard_eq_ok, guard_eq_ok]
  exact and_congr_right fun _ => and_congr_right fun _ => and_iff_left rfl

theorem one_le_maxFingers {c : Settings} (valid : c.validate = .ok ()) :
    1 ≤ c.maxFingers.toNat := by
  obtain ⟨-, -, some⟩ := c.validate_eq_ok.mp valid
  rw [Nat.one_le_iff_ne_zero]
  exact fun none => some (UInt64.toNat_inj.mp none)

end Settings

def Report.paced (gesture : GestureKind) (events : List TouchEvent) (sleeps : UInt64)
    (pause : Span) :
    Report where
  gesture
  events
  sleeps
  virtualMs := (Span.ofNanoseconds (sleeps * VirtualClock.ticks pause).toNat).milliseconds

theorem Bench.report_paced {b : Bench Panel} {events : List TouchEvent} {n : Nat} {pause : Span}
    (gesture : GestureKind) (log : b.device.log.toList = events)
    (clock : b.clock = VirtualClock.sleepAll (List.replicate n pause) {}) :
    b.report gesture = Report.paced gesture events (UInt64.ofNat n) pause := by
  rw [VirtualClock.sleepAll_replicate] at clock
  simp [report, Report.paced, log, clock, VirtualClock.now]

def Pinch.Unplanned (g : Pinch Float) : Prop := g.steps = 0 ∨ ∃ d, g.plan = .error (.overflow d)

structure Pinch.Previewed (g : Pinch Float) (slots : UInt64) (result : Except Stop Report) :
    Prop where
  invalid : (∃ fault, result = .error (.fault (.invalidArgument fault))) ↔ g.Unplanned
  crowded : result = .error (.fault (.device (.noFreeSlot 1))) ↔ ¬ g.Unplanned ∧ slots = 1
  succeeds : (∃ report, result = .ok report) ↔ ¬ g.Unplanned ∧ slots ≠ 1
  report : ∀ report, result = .ok report →
    ∃ p, g.plan = .ok p ∧ report = Report.paced .pinch p.events g.steps.toUInt64 g.pause

structure Paths.Dragged (g : Paths Float) (start target : Position) (result : Except Stop Report) :
    Prop where
  fails : (∃ stop, result = .error stop) ↔
    g.steps = 0 ∨ ¬ ((target - start) / (Coordinate.ofCount g.steps : Float)).isFinite
  invalid : ∀ stop, result = .error stop → ∃ fault, stop = .fault (.invalidArgument fault)
  report : ∀ report, result = .ok report →
    ∃ p, g.plan = .ok p ∧ report = Report.paced .drag p.events g.steps.toUInt64 g.pause

theorem Pinch.Previewed.of_fault {g : Pinch Float} {slots : UInt64} {fault : ArgumentFault}
    (bad : g.Unplanned) : g.Previewed slots (.error (.fault (.invalidArgument fault))) where
  invalid := ⟨fun _ => bad, fun _ => ⟨fault, rfl⟩⟩
  crowded := ⟨nofun, fun good => absurd bad good.1⟩
  succeeds := ⟨nofun, fun good => absurd bad good.1⟩
  report := nofun

theorem Paths.Dragged.of_fault {g : Paths Float} {start target : Position} {fault : ArgumentFault}
    (bad : g.steps = 0 ∨ ¬ ((target - start) / (Coordinate.ofCount g.steps : Float)).isFinite) :
    g.Dragged start target (.error (.fault (.invalidArgument fault))) where
  fails := ⟨fun _ => bad, fun _ => ⟨_, rfl⟩⟩
  invalid := by
    rintro _ ⟨⟩
    exact ⟨fault, rfl⟩
  report := nofun

namespace Request

variable {c : Settings} {q : Request}

theorem preview_eq :
    preview c q =
      match (q.perform (Bench.rig Panel.device) c).on (Bench.fresh c.maxFingers.toNat) with
      | (.ok (), bench) => .ok (bench.report q.kind)
      | (.error stop, _) => .error stop := rfl

theorem preview_unplanned {plan : Except (PlanFault Float) (Plan Float)} {fault : PlanFault Float}
    (planned : q.perform (Bench.rig Panel.device) c = (Bench.rig Panel.device).executePlanned plan)
    (failed : plan = .error fault) :
    preview c q = .error (.fault (.invalidArgument (.plan fault))) := by
  rw [preview_eq, planned, failed]
  rfl

theorem preview_planned {plan : Except (PlanFault Float) (Plan Float)} {p : Plan Float}
    (planned : q.perform (Bench.rig Panel.device) c = (Bench.rig Panel.device).executePlanned plan)
    (made : plan = .ok p) (aligned : p.Aligned) :
    (p.fingers.toNat ≤ c.maxFingers.toNat ∧
      preview c q = .ok (Report.paced q.kind p.events p.steps.toUInt64 p.pause)) ∨
    (c.maxFingers.toNat < p.fingers.toNat ∧
      preview c q = .error (.fault (.device (.noFreeSlot c.maxFingers.toNat)))) := by
  obtain ⟨ending, b, run, fared⟩ := Bench.execute_fared c.maxFingers.toNat aligned
  have same : (q.perform (Bench.rig Panel.device) c).on (Bench.fresh c.maxFingers.toNat) =
      (ending, b) := by
    rw [planned, made]
    exact run
  rw [preview_eq, same]
  cases fared with
  | done few log clock =>
      rw [p.spans_script] at clock
      rw [p.touches_script] at log
      have report := Bench.report_paced q.kind log clock
      rw [UInt64.ofNat_uInt32ToNat] at report
      exact .inl ⟨few, congrArg _ report⟩
  | crowded many => exact .inr ⟨many, rfl⟩

theorem preview_tap (valid : c.validate = .ok ()) {point : Position} (holdMs : Option UInt64)
    (finite : point.isFinite) :
    preview c (.tap point holdMs) =
      .ok (Report.paced .tap [.down ⟨0⟩ point, .up ⟨0⟩] 1 (c.holdFor holdMs)) := by
  obtain ⟨ending, b, run, fared⟩ :=
    Bench.tap_fared c.maxFingers.toNat finite (c.holdFor holdMs)
  have same : ((Request.tap point holdMs).perform (Bench.rig Panel.device) c).on
      (Bench.fresh c.maxFingers.toNat) = (ending, b) := run
  rw [preview_eq, same]
  cases fared with
  | done _ log clock => exact congrArg _ (Bench.report_paced (n := 1) .tap log clock)
  | crowded many =>
      have room := Settings.one_le_maxFingers valid
      omega

theorem preview_drag (valid : c.validate = .ok ()) {start target : Position} (steps : Option UInt32)
    (delayMs : Option UInt64) (finite : start.isFinite ∧ target.isFinite) :
    (c.dragFor start target steps delayMs).Dragged start target
      (preview c (.drag start target steps delayMs)) := by
  generalize given : c.dragFor start target steps delayMs = g
  have planned : (Request.drag start target steps delayMs).perform (Bench.rig Panel.device) c =
      (Bench.rig Panel.device).executePlanned g.plan := by rw [← given]; rfl
  have starts : g.starts = [start] := by rw [← given]; rfl
  have ends : g.ends = [target] := by rw [← given]; rfl
  have deltas : g.deltas = [(target - start) / (Coordinate.ofCount g.steps : Float)] := by
    rw [Paths.deltas, starts, ends]
    rfl
  have few : g.starts.length < UInt32.size := by
    rw [starts]
    change 1 < UInt32.size
    decide
  have points : ∀ q ∈ g.starts ++ g.ends, q.isFinite := by
    rw [starts, ends]
    simpa using finite
  rcases g.plan_cases (by simp [starts]) few (by rw [starts, ends]; rfl) points with
    ⟨none, failed⟩ | ⟨some, d, member, far, failed⟩ | ⟨p, made⟩
  · rw [preview_unplanned planned failed]
    exact .of_fault (.inl none)
  · rw [deltas, List.mem_singleton] at member
    rw [preview_unplanned planned failed]
    exact .of_fault (.inr (member ▸ far))
  · have aligned := g.plan_aligned made
    obtain ⟨some, -, -, -, -, near, rfl⟩ := Paths.plan_eq_ok.mp made
    rw [deltas, List.forall_mem_singleton] at near
    have one : (UInt32.ofNat g.starts.length).toNat = 1 := by rw [starts]; rfl
    rcases preview_planned planned made aligned with ⟨-, done⟩ | ⟨many, -⟩
    · rw [done]
      constructor
      case fails =>
        refine ⟨?_, fun bad => absurd bad (not_or_intro some (not_not_intro near))⟩
        rintro ⟨stop, ⟨⟩⟩
      case invalid =>
        rintro stop ⟨⟩
      case report =>
        rintro _ ⟨⟩
        exact ⟨_, made, rfl⟩
    · have room := Settings.one_le_maxFingers valid
      dsimp only at many
      omega

theorem preview_pinch (valid : c.validate = .ok ()) {center vectorStart vectorEnd : Position}
    (steps : Option UInt32) (delayMs : Option UInt64)
    (finite : center.isFinite ∧ vectorStart.isFinite ∧ vectorEnd.isFinite) :
    (c.pinchFor center vectorStart vectorEnd steps delayMs).Previewed c.maxFingers
      (preview c (.pinch center vectorStart vectorEnd steps delayMs)) := by
  obtain ⟨middle, first, last⟩ := finite
  generalize given : c.pinchFor center vectorStart vectorEnd steps delayMs = g
  have planned : (Request.pinch center vectorStart vectorEnd steps delayMs).perform
      (Bench.rig Panel.device) c = (Bench.rig Panel.device).executePlanned g.plan := by
    rw [← given]
    rfl
  rcases Pinch.plan_cases
    (g := g) (by rwa [← given]) (by rwa [← given]) (by rwa [← given]) with
    ⟨none, failed⟩ | ⟨some, d, failed⟩ | ⟨p, made⟩
  · rw [preview_unplanned planned failed]
    exact .of_fault (.inl none)
  · rw [preview_unplanned planned failed]
    exact .of_fault (.inr ⟨d, failed⟩)
  · have aligned := g.plan_aligned made
    have sound : ¬ g.Unplanned := by
      rintro (none | ⟨d, failed⟩)
      · exact (Pinch.plan_eq_ok.mp made).1 none
      · cases made.symm.trans failed
    have room := Settings.one_le_maxFingers valid
    have pace : p.steps = g.steps ∧ p.pause = g.pause ∧ p.fingers.toNat = 2 := by
      obtain ⟨-, -, -, -, -, -, rfl⟩ := Pinch.plan_eq_ok.mp made
      exact ⟨rfl, rfl, rfl⟩
    obtain ⟨count, pause, two⟩ := pace
    rcases preview_planned planned made aligned with ⟨few, done⟩ | ⟨many, crowded⟩
    · have many : c.maxFingers ≠ 1 := by
        intro one
        rw [one, two] at few
        exact absurd few (by decide)
      rw [done, count, pause]
      refine ⟨⟨nofun, fun bad => absurd bad sound⟩, ⟨nofun, fun one => absurd one.2 many⟩,
        ⟨fun _ => ⟨sound, many⟩, fun _ => ⟨_, rfl⟩⟩, ?_⟩
      rintro _ ⟨⟩
      exact ⟨p, made, rfl⟩
    · have single : c.maxFingers.toNat = 1 := by omega
      have one : c.maxFingers = 1 := UInt64.toNat_inj.mp single
      rw [crowded, single]
      exact ⟨⟨nofun, fun bad => absurd bad sound⟩,
        ⟨fun _ => ⟨sound, one⟩, fun _ => rfl⟩, ⟨nofun, fun room => absurd one room.2⟩,
        nofun⟩

/-- With settings that are of use and finite points, a tap always succeeds, a drag fails only for
its steps or its span, and a pinch fails for these or, on a panel of one slot, for want of another.
What succeeds reports the events of its plan and a sleep for each step. -/
theorem preview_outcome (valid : c.validate = .ok ()) :
    (∀ (point : Position) (holdMs : Option UInt64), point.isFinite →
      preview c (.tap point holdMs) =
        .ok (Report.paced .tap [.down ⟨0⟩ point, .up ⟨0⟩] 1 (c.holdFor holdMs))) ∧
    (∀ (start target : Position) (steps : Option UInt32) (delayMs : Option UInt64),
      start.isFinite ∧ target.isFinite →
      (c.dragFor start target steps delayMs).Dragged start target
        (preview c (.drag start target steps delayMs))) ∧
    ∀ (center vectorStart vectorEnd : Position) (steps : Option UInt32) (delayMs : Option UInt64),
      center.isFinite ∧ vectorStart.isFinite ∧ vectorEnd.isFinite →
      (c.pinchFor center vectorStart vectorEnd steps delayMs).Previewed c.maxFingers
        (preview c (.pinch center vectorStart vectorEnd steps delayMs)) :=
  ⟨fun _ holdMs => preview_tap valid holdMs,
    fun _ _ steps delayMs => preview_drag valid steps delayMs,
    fun _ _ _ steps delayMs => preview_pinch valid steps delayMs⟩

/-- On a panel of one slot a tap succeeds and a pinch does not. -/
theorem preview_outcome_one_slot :
    ({ maxFingers := 1 } : Settings).validate = .ok () ∧
    preview { maxFingers := 1 } (.tap ⟨5, 5⟩ (some 20)) =
      .ok (Report.paced .tap [.down ⟨0⟩ ⟨5, 5⟩, .up ⟨0⟩] 1 (.ofMilliseconds 20)) ∧
    preview { maxFingers := 1 } (.pinch ⟨0, 0⟩ ⟨10, 0⟩ ⟨50, 0⟩ (some 4) none) =
      .error (.fault (.device (.noFreeSlot 1))) := by
  have valid : ({ maxFingers := 1 } : Settings).validate = .ok () := rfl
  obtain ⟨tap, -, pinch⟩ := preview_outcome valid
  have previewed := pinch ⟨0, 0⟩ ⟨10, 0⟩ ⟨50, 0⟩ (some 4) none (by decide +kernel)
  refine ⟨valid, tap _ _ (by decide +kernel), previewed.crowded.mpr ⟨?_, rfl⟩⟩
  rintro (none | ⟨d, failed⟩)
  · cases none
  · cases Pinch.zoom_planned.symm.trans failed

end Request

end TouchGesture
