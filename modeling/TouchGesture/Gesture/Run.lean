import TouchGesture.Gesture.Fault
import TouchGesture.Note

/-! Gestures carried out: a plan or a tap on any device, paced by any time source and watched by any
cancel token. -/

namespace TouchGesture

/-- What a gesture is carried out on. The device, the time source and the token share one state, so
a run can be told apart by all that it did; the answers may depend on that state in any way. -/
structure Rig (σ : Type) where
  touch : TouchEvent → StateM σ Verdict
  sleep : Span → StateM σ Unit
  cancelled : StateM σ Bool
  note : Note → StateM σ Unit

inductive Stop where
  | fault (fault : GestureFault)
  | crash

abbrev Run (σ : Type) := ExceptT Stop (StateM σ)

namespace Rig

variable {σ : Type} (r : Rig σ)

def unwatched : Rig σ := { r with cancelled := pure false }

def touchAll : List TouchEvent → Run σ Unit
  | [] => pure ()
  | e :: rest => do
      match ← r.touch e with
      | .accepted => touchAll rest
      | .rejected refusal => throw (.fault (.device refusal))
      | .crashed => throw .crash

def liftAll (lifted : Nat) : List Finger → Run σ Unit
  | [] => do
      r.note (.gestureCancelled lifted)
      throw (.fault (.cancelled lifted))
  | f :: rest => do
      match ← r.touch (.up f) with
      | .accepted => liftAll (lifted + 1) rest
      | .rejected refusal =>
          r.note (.liftFailed f refusal)
          liftAll lifted rest
      | .crashed => throw .crash

def pace (p : Plan Float) (step : Nat) : Nat → Run σ Unit
  | 0 => pure ()
  | remaining + 1 => do
      r.touchAll (p.moves (p.frame (UInt32.ofNat step)))
      r.sleep p.pause
      if ← r.cancelled then r.liftAll 0 p.fingerNames
      else pace p (step + 1) remaining

/-- Carries out a plan. A refused touch ends the run at once and leaves the fingers as they are. -/
def execute (p : Plan Float) : Run σ Unit := do
  if ← r.cancelled then throw (.fault (.cancelled 0))
  r.note (.gestureStart p.fingers.toNat p.steps.toNat (UInt64.ofNat p.pause.microseconds))
  r.touchAll p.downs
  r.pace p 0 p.steps.toNat
  r.touchAll (p.moves p.ends)
  r.touchAll p.ups
  r.note (.gestureComplete p.eventCount)

def tap (point : Position) (hold : Span) : Run σ Unit := do
  if !point.isFinite then throw (.fault (.invalidArgument (.tapPoint point)))
  if ← r.cancelled then throw (.fault (.cancelled 0))
  r.note (.tap point)
  r.touchAll [.down ⟨0⟩ point]
  r.sleep hold
  if ← r.cancelled then r.liftAll 0 [⟨0⟩]
  else r.touchAll [.up ⟨0⟩]

def executePlanned : Except (PlanFault Float) (Plan Float) → Run σ Unit
  | .error fault => throw (.fault (.invalidArgument (.plan fault)))
  | .ok p => r.execute p

def pinch (g : Pinch Float) : Run σ Unit := r.executePlanned g.plan

def followPaths (g : Paths Float) : Run σ Unit := r.executePlanned g.plan

end Rig

end TouchGesture
