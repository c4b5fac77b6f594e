import TouchGesture.Touch.Panel

/-! What the library notes in the log of a run. -/

namespace TouchGesture

/-- Times are in microseconds and, like every count here, of 64 bits. -/
inductive Note where
  | gestureStart (fingers steps : Nat) (stepDelay : UInt64)
  | gestureComplete (events : UInt64)
  | gestureCancelled (lifted : Nat)
  | liftFailed (finger : Finger) (refusal : Refusal)
  | tap (point : Position)
  | drag (start target : Position)
  | contactDown (contact : Contact)
  | contactUp (finger : Finger) (slot : Nat)

namespace Note

def level : Note → String
  | .contactDown _ | .contactUp .. => "TRACE"
  | .liftFailed .. => "WARN"
  | _ => "DEBUG"

def message : Note → String
  | .gestureStart .. => "gesture start"
  | .gestureComplete _ => "gesture complete"
  | .gestureCancelled _ => "gesture cancelled"
  | .liftFailed .. => "failed to lift finger after cancellation"
  | .tap _ => "tap"
  | .drag .. => "drag"
  | .contactDown _ => "contact down"
  | .contactUp .. => "contact up"

def fields : Note → List (String × String)
  | .gestureStart fingers steps stepDelay =>
      [("fingers", toString fingers), ("steps", toString steps),
        ("step_delay_us", toString stepDelay)]
  | .gestureComplete events => [("events", toString events)]
  | .gestureCancelled lifted => [("lifted", toString lifted)]
  | .liftFailed finger refusal => [("finger", finger.text), ("error", refusal.message)]
  | .tap p => [("x", Decimal.plain p.x), ("y", Decimal.plain p.y)]
  | .drag start target => [("from", start.text), ("to", target.text)]
  | .contactDown c =>
      [("finger", c.finger.text), ("slot", toString c.slot), ("tracking_id", toString c.trackingId),
        ("x", Decimal.plain c.point.x), ("y", Decimal.plain c.point.y)]
  | .contactUp finger slot => [("finger", finger.text), ("slot", toString slot)]

def text (n : Note) : String :=
  n.level ++ " " ++ n.message ++ String.join (n.fields.map fun f => " " ++ f.1 ++ "=" ++ f.2)

def ofTouch? : TouchEvent → Option Contact → Option Note
  | .down .., some c => some (.contactDown c)
  | .up f, some c => some (.contactUp f c.slot)
  | _, _ => none

end Note

end TouchGesture
