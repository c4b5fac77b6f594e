import TouchGesture.Span
import TouchGesture.Touch.Panel

/-! The pacing of gestures: six numbers, each with a name and a range. -/

namespace TouchGesture

structure Settings where
  steps : UInt32 := 100
  stepDelayMs : UInt64 := 5
  dragSteps : UInt32 := 100
  dragStepDelayMs : UInt64 := 2
  tapHoldMs : UInt64 := 100
  maxFingers : UInt64 := UInt64.ofNat Panel.defaultMaxFingers
  deriving DecidableEq, Repr

inductive SettingsFault where
  | noSteps
  | noDragSteps
  | noFingers
  | other (message : String)
  deriving DecidableEq, Repr

def SettingsFault.message : SettingsFault → String
  | .noSteps => "steps must be at least 1"
  | .noDragSteps => "drag_steps must be at least 1"
  | .noFingers => "max_fingers must be at least 1"
  | .other message => message

namespace Settings

inductive Field where
  | steps
  | stepDelayMs
  | dragSteps
  | dragStepDelayMs
  | tapHoldMs
  | maxFingers
  deriving DecidableEq, Repr

namespace Field

def all : List Field :=
  [.steps, .stepDelayMs, .dragSteps, .dragStepDelayMs, .tapHoldMs, .maxFingers]

def name : Field → String
  | .steps => "steps"
  | .stepDelayMs => "step_delay_ms"
  | .dragSteps => "drag_steps"
  | .dragStepDelayMs => "drag_step_delay_ms"
  | .tapHoldMs => "tap_hold_ms"
  | .maxFingers => "max_fingers"

def ofName? (s : String) : Option Field := all.find? fun f => f.name = s

def size : Field → Nat
  | .steps | .dragSteps => UInt32.size
  | .stepDelayMs | .dragStepDelayMs | .tapHoldMs | .maxFingers => UInt64.size

def kind : Field → String
  | .steps | .dragSteps => "u32"
  | .stepDelayMs | .dragStepDelayMs | .tapHoldMs => "u64"
  | .maxFingers => "usize"

end Field

def get (c : Settings) : Field → Nat
  | .steps => c.steps.toNat
  | .stepDelayMs => c.stepDelayMs.toNat
  | .dragSteps => c.dragSteps.toNat
  | .dragStepDelayMs => c.dragStepDelayMs.toNat
  | .tapHoldMs => c.tapHoldMs.toNat
  | .maxFingers => c.maxFingers.toNat

def set (c : Settings) : Field → Nat → Settings
  | .steps, n => { c with steps := UInt32.ofNat n }
  | .stepDelayMs, n => { c with stepDelayMs := UInt64.ofNat n }
  | .dragSteps, n => { c with dragSteps := UInt32.ofNat n }
  | .dragStepDelayMs, n => { c with dragStepDelayMs := UInt64.ofNat n }
  | .tapHoldMs, n => { c with tapHoldMs := UInt64.ofNat n }
  | .maxFingers, n => { c with maxFingers := UInt64.ofNat n }

def validate (c : Settings) : Except SettingsFault Unit :=
  if c.steps = 0 then .error .noSteps
  else if c.dragSteps = 0 then .error .noDragSteps
  else if c.maxFingers = 0 then .error .noFingers
  else .ok ()

def stepDelay (c : Settings) : Span := .ofMilliseconds c.stepDelayMs

def dragStepDelay (c : Settings) : Span := .ofMilliseconds c.dragStepDelayMs

def tapHold (c : Settings) : Span := .ofMilliseconds c.tapHoldMs

def toYaml (c : Settings) : String :=
  String.join (Field.all.map fun f => f.name ++ ": " ++ toString (c.get f) ++ "\n")

end Settings

end TouchGesture
