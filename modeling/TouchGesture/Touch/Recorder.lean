import TouchGesture.Touch.Device

/-! A device that records every touch it accepts and can be told to refuse one of them. -/

namespace TouchGesture

/-- The fingers in contact are kept in order; `failAt` counts touches from one. Both counts stand
for machine words, which no run fills up. -/
structure Recorder where
  events : Array TouchEvent := #[]
  down : List Finger := []
  failAt : Option Nat := none
  attempts : Nat := 0

namespace Recorder

def new : Recorder := {}

def failingAt (r : Recorder) (n : Nat) : Recorder := { r with failAt := some n }

def pathOf (r : Recorder) (f : Finger) : List Position :=
  (r.events.toList.filter fun e => e.finger = f).filterMap Touch.point?

def movesOf (r : Recorder) (f : Finger) : List Position :=
  (r.events.toList.filter fun e => e.finger = f ∧ e.phase = .move).filterMap Touch.point?

def clear (r : Recorder) : Recorder := { r with events := #[], down := [], attempts := 0 }

def touch (e : TouchEvent) (r : Recorder) : Verdict × Recorder :=
  let counted := { r with attempts := r.attempts + 1 }
  if r.failAt = some counted.attempts then (.rejected (.injected counted.attempts), counted)
  else
    match e with
    | .down f _ =>
        if f ∈ r.down then (.rejected (.alreadyDown f), counted)
        else (.accepted, { counted with
          down := Finger.insertBy id f r.down
          events := r.events.push e })
    | .move f _ =>
        if f ∈ r.down then (.accepted, { counted with events := r.events.push e })
        else (.rejected (.notDown f), counted)
    | .up f =>
        if f ∈ r.down then (.accepted, { counted with
          down := r.down.filter (· ≠ f)
          events := r.events.push e })
        else (.rejected (.notDown f), counted)

def device : Device Recorder := ⟨touch⟩

end Recorder

end TouchGesture
