import TouchGesture.Json.Decode
import TouchGesture.Json.Print
import TouchGesture.Touch.Panel

/-! Points, fingers, touches and contacts in JSON. -/

namespace TouchGesture

open Json

namespace Point

def toJson (p : Position) : Json := record [("x", ofFloat p.x), ("y", ofFloat p.y)]

def ofJson (source : Source) : Json → Decoded Position
  | .object fields closed => do
      let (x, y) ← foldFields fields closed (none, none) fun (x, y) name item => do
        if name = "x" then return (← once x name (double item), y)
        else if name = "y" then return (x, ← once y name (double item))
        else return (x, y)
      return ⟨← required "x" x, ← required "y" y⟩
  | .array items closed => do
      let expected := "struct Point with 2 elements"
      let (x, rest) ← next 0 expected (items, closed)
      let x ← double x
      let (y, rest) ← next 1 expected rest
      let y ← double y
      finish source 2 rest
      return ⟨x, y⟩
  | j => mismatch "struct Point" j

end Point

namespace Finger

def toJson (f : Finger) : Json := .ofNat f.index.toNat

def ofJson (j : Json) : Decoded Finger := Finger.mk <$> word32 j

end Finger

namespace Phase

def names : List String := ["down", "move", "up"]

def ofName (s : String) : Decoded Phase :=
  if s = "down" then .ok .down
  else if s = "move" then .ok .move
  else if s = "up" then .ok .up
  else fault (.unknownVariant s names)

def ofIdentifier : Json → Decoded Phase
  | .string body => do ofName (← characters body)
  | j => mismatch "variant identifier" j

def ofJson : Json → Decoded Phase
  | .string body => do ofName (← characters body)
  | .object ((key, item) :: more) closed => do
      let phase ← ofName (← keyName key)
      match item with
      | .null => if more.isEmpty ∧ closed then return phase else .error .malformed
      | item => mismatch "unit" item
  | _ => .error .malformed

end Phase

namespace Touch

def toJson : TouchEvent → Json
  | .down f p => record [("phase", ofPlain "down"), ("finger", f.toJson), ("point", p.toJson)]
  | .move f p => record [("phase", ofPlain "move"), ("finger", f.toJson), ("point", p.toJson)]
  | .up f => record [("phase", ofPlain "up"), ("finger", f.toJson)]

def ofFields (phase : Phase) (fields : List (String × Json)) : Decoded TouchEvent := do
  let (finger, point) ← fields.foldlM (fun (finger, point) (name, item) => do
    if name = "finger" then return (← once finger name (Finger.ofJson item), point)
    else if name = "point" ∧ phase ≠ .up then
      return (finger, ← once point name (Point.ofJson .held item))
    else return (finger, point)) (none, none)
  let finger ← required "finger" finger
  match phase with
  | .down => return .down finger (← required "point" point)
  | .move => return .move finger (← required "point" point)
  | .up => return .up finger

def ofItems (phase : Phase) (items : List Json) : Decoded TouchEvent := do
  let expected (variant count : String) :=
    "struct variant TouchEvent::" ++ variant ++ " with " ++ count
  let both (variant : String) : Decoded (Finger × Position) := do
    let expected := expected variant "2 elements"
    let (finger, rest) ← next 0 expected (items, true)
    let finger ← Finger.ofJson finger
    let (point, rest) ← next 1 expected rest
    let point ← Point.ofJson .held point
    finish .held 2 rest
    return (finger, point)
  match phase with
  | .down => return (fun (finger, point) => .down finger point) (← both "Down")
  | .move => return (fun (finger, point) => .move finger point) (← both "Move")
  | .up =>
      let (finger, rest) ← next 0 (expected "Up" "1 element") (items, true)
      let finger ← Finger.ofJson finger
      finish .held 1 rest
      return .up finger

def splitPhase (depth : Nat) (fields : List (Json × Json)) (closed : Bool) :
    Decoded (Option Phase × List (String × Json)) :=
  foldFields fields closed (none, []) fun (phase, held) name item => do
    if name = "phase" then return (← once phase name (Phase.ofIdentifier item), held)
    else if holdable depth item then return (phase, held ++ [(name, item)])
    else .error .malformed

def ofHeld (depth : Nat) (event : Decoded TouchEvent) : Decoded TouchEvent :=
  if depth = 0 then event.mapError JsonFault.forgetPlace else event

/-- An object with a phase and what belongs to it, or a list that starts with the phase; `depth`
lists and objects stand around it. -/
def ofJson (depth : Nat) : Json → Decoded TouchEvent
  | .object fields closed => do
      let (phase, held) ← splitPhase (depth + 1) fields closed
      let phase ← required "phase" phase
      ofHeld depth (ofFields phase held)
  | .array [] true => fault (.missingField "phase")
  | .array [] false => .error .malformed
  | .array (phase :: items) closed => do
      let phase ← Phase.ofIdentifier phase
      if closed && holdableItems (depth + 1) items then ofHeld depth (ofItems phase items)
      else .error .malformed
  | j => mismatch "internally tagged enum TouchEvent" j

end Touch

def Contact.toJson (c : Contact) : Json :=
  record [("finger", c.finger.toJson), ("slot", .ofNat c.slot),
    ("tracking_id", .ofNat c.trackingId),
    ("point", c.point.toJson)]

end TouchGesture
