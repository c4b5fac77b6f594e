import TouchGesture.Json.Touch

/-! What a previewed gesture did, as text and as JSON. -/

namespace TouchGesture

inductive GestureKind where
  | pinch
  | drag
  | tap
  deriving DecidableEq, Repr

def GestureKind.name : GestureKind → String
  | .pinch => "pinch"
  | .drag => "drag"
  | .tap => "tap"

structure Report where
  gesture : GestureKind
  events : List TouchEvent
  sleeps : UInt64
  virtualMs : Float

inductive OutputFormat where
  | text
  | json
  deriving DecidableEq, Repr

namespace Report

def column (n : Nat) : String :=
  let ds := Nat.toDigits 10 n
  String.ofList (List.replicate (5 - ds.length) ' ' ++ ds)

def line (n : Nat) (e : TouchEvent) : String := column n ++ "  " ++ e.text ++ "\n"

def summary (r : Report) : String :=
  r.gesture.name ++ ": " ++ toString r.events.length ++ " events, " ++ toString r.sleeps.toNat ++
    " sleeps, " ++ Decimal.fixed 3 r.virtualMs ++ " ms virtual\n"

def text (r : Report) : String := String.join (r.events.mapIdx line) ++ r.summary

def toJson (r : Report) : Json :=
  .record [("gesture", .ofPlain r.gesture.name), ("events", .list Touch.toJson r.events),
    ("sleeps", .ofNat r.sleeps.toNat), ("virtual_ms", .ofFloat r.virtualMs)]

def render (r : Report) : OutputFormat → String
  | .text => r.text
  | .json => r.toJson.pretty

end Report

end TouchGesture
