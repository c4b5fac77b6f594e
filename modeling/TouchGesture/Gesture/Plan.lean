import TouchGesture.Settings

/-! What a caller asks of the fingers, and the plan of their steps that follows from it. The
formulas hold over any coordinates. -/

namespace TouchGesture

/-- Two fingers mirrored about a fixed center: at `center ± vectorStart` first, and in the end at
`center ± vectorEnd`. -/
structure Pinch (α : Type) where
  center : Point α
  vectorStart : Point α
  vectorEnd : Point α
  steps : UInt32 := 100
  pause : Span := .ofMilliseconds 5

structure Paths (α : Type) where
  starts : List (Point α)
  ends : List (Point α)
  steps : UInt32 := 100
  pause : Span := .ofMilliseconds 5

inductive PlanFault (α : Type) where
  | noSteps
  | noFinger
  | tooManyFingers (count : Nat)
  | unequalCounts (starts ends : Nat)
  | notFinite (name : String) (point : Point α)
  | notFinitePoint (point : Point α)
  | overflow (delta : Point α)

def PlanFault.message : PlanFault Float → String
  | .noSteps => "steps must be at least 1"
  | .noFinger => "a gesture needs at least one finger"
  | .tooManyFingers count => "a gesture supports at most 4294967295 fingers, got " ++ toString count
  | .unequalCounts starts ends =>
      toString starts ++ " start points but " ++ toString ends ++ " end points"
  | .notFinite name point => name ++ " must be finite, got " ++ point.text
  | .notFinitePoint point => "gesture points must be finite, got " ++ point.text
  | .overflow delta => "gesture span overflows, step delta " ++ delta.text

structure Plan (α : Type) where
  starts : List (Point α)
  ends : List (Point α)
  deltas : List (Point α)
  fingers : UInt32
  steps : UInt32
  pause : Span

namespace Plan

variable {α : Type}

def fingerNames (p : Plan α) : List Finger := Finger.first p.fingers

def downs (p : Plan α) : List (Touch α) := List.zipWith .down p.fingerNames p.starts

def moves (p : Plan α) (points : List (Point α)) : List (Touch α) :=
  List.zipWith .move p.fingerNames points

def ups (p : Plan α) : List (Touch α) := p.fingerNames.map .up

def duration (p : Plan α) : Span := p.pause.times p.steps.toNat

def eventCount (p : Plan α) : UInt64 := p.fingers.toUInt64 * (p.steps.toUInt64 + 3)

variable [Coordinate α]

def build (starts ends deltas : List (Point α)) (steps : UInt32) (pause : Span) :
    Except (PlanFault α) (Plan α) :=
  if UInt32.size ≤ starts.length then .error (.tooManyFingers starts.length)
  else
    match deltas.find? fun d => !d.isFinite with
    | some d => .error (.overflow d)
    | none => .ok ⟨starts, ends, deltas, UInt32.ofNat starts.length, steps, pause⟩

/-- Where the fingers are after a step, counted from zero. It may lie past the last step. -/
def frame (p : Plan α) (step : UInt32) : List (Point α) :=
  let factor : α := Coordinate.ofCount step + Coordinate.ofCount 1
  List.zipWith (fun start delta => start + delta * factor) p.starts p.deltas

def frames (p : Plan α) : List (List (Point α)) :=
  (List.range p.steps.toNat).map fun i => p.frame (UInt32.ofNat i)

def events (p : Plan α) : List (Touch α) :=
  p.downs ++ p.frames.flatMap p.moves ++ p.moves p.ends ++ p.ups

end Plan

namespace Pinch

variable {α : Type} [Coordinate α]

def startPoints (g : Pinch α) : List (Point α) :=
  [g.center - g.vectorStart, g.center + g.vectorStart]

def endPoints (g : Pinch α) : List (Point α) := [g.center - g.vectorEnd, g.center + g.vectorEnd]

def ofSettings (c : Settings) (center vectorStart vectorEnd : Point α) : Pinch α :=
  ⟨center, vectorStart, vectorEnd, c.steps, c.stepDelay⟩

def zoomsIn (g : Pinch Float) : Bool := g.vectorStart.length < g.vectorEnd.length

def plan (g : Pinch α) : Except (PlanFault α) (Plan α) :=
  if g.steps = 0 then .error .noSteps
  else if !g.center.isFinite then .error (.notFinite "center" g.center)
  else if !g.vectorStart.isFinite then .error (.notFinite "vector_start" g.vectorStart)
  else if !g.vectorEnd.isFinite then .error (.notFinite "vector_end" g.vectorEnd)
  else
    let delta := ((g.center - g.vectorEnd) - (g.center - g.vectorStart)) /
      (Coordinate.ofCount g.steps : α)
    Plan.build g.startPoints g.endPoints [delta, -delta] g.steps g.pause

end Pinch

namespace Paths

variable {α : Type} [Coordinate α]

def ofPinch (g : Pinch α) : Paths α := ⟨g.startPoints, g.endPoints, g.steps, g.pause⟩

def plan (g : Paths α) : Except (PlanFault α) (Plan α) :=
  if g.steps = 0 then .error .noSteps
  else if g.starts.isEmpty then .error .noFinger
  else if UInt32.size ≤ g.starts.length then .error (.tooManyFingers g.starts.length)
  else if g.starts.length ≠ g.ends.length then
    .error (.unequalCounts g.starts.length g.ends.length)
  else
    match (g.starts ++ g.ends).find? fun p => !p.isFinite with
    | some p => .error (.notFinitePoint p)
    | none =>
        let steps : α := Coordinate.ofCount g.steps
        Plan.build g.starts g.ends (List.zipWith (fun s e => (e - s) / steps) g.starts g.ends)
          g.steps g.pause

end Paths

end TouchGesture
