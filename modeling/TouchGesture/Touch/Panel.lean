import TouchGesture.Touch.Device

/-! A touch panel in memory: every contact holds one of a fixed number of slots and gets a tracking
id of its own when it goes down. -/

namespace TouchGesture

structure Contact where
  finger : Finger
  slot : Nat
  trackingId : Nat
  point : Position
  deriving DecidableEq, Repr

structure Resolution where
  width : Float
  height : Float
  deriving DecidableEq, Repr

namespace Resolution

/-- Brings a coordinate into `[0, bound]`. There is no such range for a negative bound or one that
is not a number. -/
def clampTo? (bound v : Float) : Option Float :=
  if 0 ≤ bound then
    let raised := if v < 0 then 0 else v
    some (if bound < raised then bound else raised)
  else none

def clamp? (r : Resolution) (p : Position) : Option Position := do
  let x ← clampTo? r.width p.x
  let y ← clampTo? r.height p.y
  return ⟨x, y⟩

end Resolution

/-- The panel holds its contacts in the order of their fingers and logs what it has accepted.
Tracking ids are counted on from one, for words of 64 bits that no run uses up. -/
structure Panel where
  slots : List (Option Finger)
  contacts : List Contact
  lastTrackingId : Nat
  resolution : Option Resolution
  log : Array TouchEvent

namespace Panel

def defaultMaxFingers : Nat := 9

def ofSlots (max : Nat) : Panel := ⟨List.replicate max none, [], 0, none, #[]⟩

def new : Panel := ofSlots defaultMaxFingers

def withResolution (p : Panel) (r : Resolution) : Panel := { p with resolution := some r }

def maxFingers (p : Panel) : Nat := p.slots.length

def contact? (p : Panel) (f : Finger) : Option Contact := p.contacts.find? (·.finger = f)

def isDown (p : Panel) (f : Finger) : Bool := (p.contact? f).isSome

def activeCount (p : Panel) : Nat := p.contacts.length

def drain (p : Panel) : Array TouchEvent × Panel := (p.log, { p with log := #[] })

def place? (p : Panel) (spot : Position) : Option Position :=
  match p.resolution with
  | none => some spot
  | some r => r.clamp? spot

/-- A finger that goes down takes the first free slot and the next tracking id before its place is
worked out. -/
def press (p : Panel) (f : Finger) (spot : Position) : Verdict × Panel :=
  if p.isDown f then (.rejected (.alreadyDown f), p)
  else
    match p.slots.findIdx? Option.isNone with
    | none => (.rejected (.noFreeSlot p.slots.length), p)
    | some slot =>
        let claimed := { p with
          slots := p.slots.set slot (some f)
          lastTrackingId := p.lastTrackingId + 1 }
        match p.place? spot with
        | none => (.crashed, claimed)
        | some point =>
            (.accepted, { claimed with
              contacts :=
                Finger.insertBy Contact.finger ⟨f, slot, p.lastTrackingId + 1, point⟩ p.contacts
              log := p.log.push (.down f point) })

/-- The place of a move is worked out before its finger is looked up. -/
def slide (p : Panel) (f : Finger) (spot : Position) : Verdict × Panel :=
  match p.place? spot with
  | none => (.crashed, p)
  | some point =>
      if p.isDown f then
        (.accepted, { p with
          contacts := p.contacts.map fun c => if c.finger = f then { c with point := point } else c
          log := p.log.push (.move f point) })
      else (.rejected (.notDown f), p)

def lift (p : Panel) (f : Finger) : Verdict × Panel :=
  match p.contact? f with
  | none => (.rejected (.notDown f), p)
  | some c =>
      (.accepted, { p with
        slots := p.slots.set c.slot none
        contacts := p.contacts.filter fun c => c.finger ≠ f
        log := p.log.push (.up f) })

def touch : TouchEvent → Panel → Verdict × Panel
  | .down f spot, p => p.press f spot
  | .move f spot, p => p.slide f spot
  | .up f, p => p.lift f

def device : Device Panel := ⟨touch⟩

end Panel

end TouchGesture
