import TouchGesture.Clock
import TouchGesture.Gesture.Engine
import TouchGesture.Preview.Report

/-! Gestures asked for from outside, carried out on a fresh panel with virtual time. -/

namespace TouchGesture

inductive Request where
  | pinch (center vectorStart vectorEnd : Position) (steps : Option UInt32)
      (delayMs : Option UInt64)
  | drag (start target : Position) (steps : Option UInt32) (delayMs : Option UInt64)
  | tap (point : Position) (holdMs : Option UInt64)

structure Bench (σ : Type) where
  device : σ
  clock : VirtualClock := {}

namespace Bench

def rig {σ : Type} (d : Device σ) : Rig (Bench σ) where
  touch e := fun ⟨device, clock⟩ =>
    let (verdict, device) := d.touch e device
    (verdict, ⟨device, clock⟩)
  sleep s := fun ⟨device, clock⟩ => ((), ⟨device, clock.sleep s⟩)
  cancelled := pure false
  note _ := pure ()

def report (b : Bench Panel) (gesture : GestureKind) : Report where
  gesture
  events := b.device.log.toList
  sleeps := b.clock.sleeps
  virtualMs := b.clock.now.milliseconds

end Bench

namespace Request

def kind : Request → GestureKind
  | .pinch .. => .pinch
  | .drag .. => .drag
  | .tap .. => .tap

def perform {σ : Type} (r : Rig σ) (c : Settings) : Request → Run σ Unit
  | .pinch center vectorStart vectorEnd steps delayMs =>
      r.pinch ⟨center, vectorStart, vectorEnd, steps.getD c.steps,
        (delayMs.map Span.ofMilliseconds).getD c.stepDelay⟩
  | .drag start target steps delayMs =>
      r.followPaths ⟨[start], [target], steps.getD c.dragSteps,
        (delayMs.map Span.ofMilliseconds).getD c.dragStepDelay⟩
  | .tap point holdMs => r.tap point ((holdMs.map Span.ofMilliseconds).getD c.tapHold)

def preview (c : Settings) (q : Request) : Except Stop Report :=
  match (q.perform (Bench.rig Panel.device) c).run.run
    ⟨Panel.ofSlots c.maxFingers.toNat, {}⟩ with
  | (.ok (), bench) => .ok (bench.report q.kind)
  | (.error stop, _) => .error stop

end Request

end TouchGesture
