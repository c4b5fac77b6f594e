import TouchGesture.Gesture.Plan
import TouchGesture.Json.Touch

/-! Spans, pinches, paths and plans in JSON. -/

namespace TouchGesture

open Json

namespace Span

def toJson (s : Span) : Json := record [("secs", .ofNat s.seconds), ("nanos", .ofNat s.subsecond)]

def fieldNames : List String := ["secs", "nanos"]

def ofParts (seconds : UInt64) (nanos : UInt32) : Decoded Span :=
  match ofParts? seconds nanos with
  | some s => .ok s
  | none => fault .spanOverflow

def ofJson : Json → Decoded Span
  | .object fields closed => do
      let (seconds, nanos) ← foldFields fields closed (none, none)
          fun (seconds, nanos) name item => do
        if name = "secs" then return (← once seconds name (word64 item), nanos)
        else if name = "nanos" then return (seconds, ← once nanos name (word32 item))
        else fault (.unknownField name fieldNames)
      ofParts (← required "secs" seconds) (← required "nanos" nanos)
  | .array items closed => do
      let (seconds, rest) ← next 0 "struct Duration" (items, closed)
      let seconds ← word64 seconds
      let (nanos, rest) ← next 1 "struct Duration" rest
      let nanos ← word32 nanos
      let span ← ofParts seconds nanos
      finish .text 2 rest
      return span
  | j => mismatch "struct Duration" j

end Span

namespace Pinch

def toJson (g : Pinch Float) : Json :=
  record [("center", g.center.toJson), ("vector_start", g.vectorStart.toJson),
    ("vector_end", g.vectorEnd.toJson), ("steps", .ofNat g.steps.toNat),
    ("step_delay", g.pause.toJson)]

structure Draft where
  center : Option Position := none
  vectorStart : Option Position := none
  vectorEnd : Option Position := none
  steps : Option UInt32 := none
  pause : Option Span := none

def Draft.take (d : Draft) (name : String) (item : Json) : Decoded Draft := do
  if name = "center" then
    return { d with center := ← once d.center name (Point.ofJson .text item) }
  else if name = "vector_start" then
    return { d with vectorStart := ← once d.vectorStart name (Point.ofJson .text item) }
  else if name = "vector_end" then
    return { d with vectorEnd := ← once d.vectorEnd name (Point.ofJson .text item) }
  else if name = "steps" then return { d with steps := ← once d.steps name (word32 item) }
  else if name = "step_delay" then
    return { d with pause := ← once d.pause name (Span.ofJson item) }
  else return d

def ofJson : Json → Decoded (Pinch Float)
  | .object fields closed => do
      let d ← foldFields fields closed {} Draft.take
      return ⟨← required "center" d.center, ← required "vector_start" d.vectorStart,
        ← required "vector_end" d.vectorEnd, ← required "steps" d.steps,
        ← required "step_delay" d.pause⟩
  | .array items closed => do
      let expected := "struct GestureSpec with 5 elements"
      let (center, rest) ← next 0 expected (items, closed)
      let center ← Point.ofJson .text center
      let (vectorStart, rest) ← next 1 expected rest
      let vectorStart ← Point.ofJson .text vectorStart
      let (vectorEnd, rest) ← next 2 expected rest
      let vectorEnd ← Point.ofJson .text vectorEnd
      let (steps, rest) ← next 3 expected rest
      let steps ← word32 steps
      let (pause, rest) ← next 4 expected rest
      let pause ← Span.ofJson pause
      finish .text 5 rest
      return ⟨center, vectorStart, vectorEnd, steps, pause⟩
  | j => mismatch "struct GestureSpec" j

end Pinch

namespace Paths

def toJson (g : Paths Float) : Json :=
  record [("starts", list Point.toJson g.starts), ("ends", list Point.toJson g.ends),
    ("steps", .ofNat g.steps.toNat), ("step_delay", g.pause.toJson)]

structure Draft where
  starts : Option (List Position) := none
  ends : Option (List Position) := none
  steps : Option UInt32 := none
  pause : Option Span := none

def Draft.take (d : Draft) (name : String) (item : Json) : Decoded Draft := do
  if name = "starts" then
    return { d with starts := ← once d.starts name (listOf (Point.ofJson .text) item) }
  else if name = "ends" then
    return { d with ends := ← once d.ends name (listOf (Point.ofJson .text) item) }
  else if name = "steps" then return { d with steps := ← once d.steps name (word32 item) }
  else if name = "step_delay" then
    return { d with pause := ← once d.pause name (Span.ofJson item) }
  else return d

def ofJson : Json → Decoded (Paths Float)
  | .object fields closed => do
      let d ← foldFields fields closed {} Draft.take
      return ⟨← required "starts" d.starts, ← required "ends" d.ends,
        ← required "steps" d.steps, ← required "step_delay" d.pause⟩
  | .array items closed => do
      let expected := "struct MultiFingerSpec with 4 elements"
      let (starts, rest) ← next 0 expected (items, closed)
      let starts ← listOf (Point.ofJson .text) starts
      let (ends, rest) ← next 1 expected rest
      let ends ← listOf (Point.ofJson .text) ends
      let (steps, rest) ← next 2 expected rest
      let steps ← word32 steps
      let (pause, rest) ← next 3 expected rest
      let pause ← Span.ofJson pause
      finish .text 4 rest
      return ⟨starts, ends, steps, pause⟩
  | j => mismatch "struct MultiFingerSpec" j

end Paths

def Plan.toJson (p : Plan Float) : Json :=
  record [("starts", list Point.toJson p.starts), ("ends", list Point.toJson p.ends),
    ("deltas", list Point.toJson p.deltas), ("fingers", .ofNat p.fingers.toNat),
    ("steps", .ofNat p.steps.toNat), ("step_delay", p.pause.toJson)]

end TouchGesture
