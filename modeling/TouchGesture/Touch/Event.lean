import TouchGesture.Point

/-! Fingers and what they do on a screen. -/

namespace TouchGesture

structure Finger where
  index : UInt32
  deriving DecidableEq, Repr

namespace Finger

def ofIndex? (n : Nat) : Option Finger :=
  if n < UInt32.size then some ⟨UInt32.ofNat n⟩ else none

def first (n : UInt32) : List Finger :=
  (List.range n.toNat).map fun i => ⟨UInt32.ofNat i⟩

def text (f : Finger) : String := toString f.index.toNat

def insertBy {α : Type} (finger : α → Finger) (a : α) : List α → List α
  | [] => [a]
  | b :: rest =>
      if (finger a).index < (finger b).index then a :: b :: rest
      else b :: insertBy finger a rest

end Finger

inductive Phase where
  | down
  | move
  | up
  deriving DecidableEq, Repr

def Phase.name : Phase → String
  | .down => "down"
  | .move => "move"
  | .up => "up"

inductive Touch (α : Type) where
  | down (finger : Finger) (point : Point α)
  | move (finger : Finger) (point : Point α)
  | up (finger : Finger)
  deriving DecidableEq, Repr

abbrev TouchEvent := Touch Float

namespace Touch

variable {α : Type}

def finger : Touch α → Finger
  | .down f _ | .move f _ | .up f => f

def phase : Touch α → Phase
  | .down .. => .down
  | .move .. => .move
  | .up _ => .up

def point? : Touch α → Option (Point α)
  | .down _ p | .move _ p => some p
  | .up _ => none

/-- A touch is known by its phase, its finger and its place. -/
theorem eq_of_parts {e f : Touch α} (phase : e.phase = f.phase) (finger : e.finger = f.finger)
    (point : e.point? = f.point?) : e = f := by
  cases e <;> cases f <;> cases phase
  case down.down.refl g p h q | move.move.refl g p h q =>
    obtain rfl : g = h := finger
    obtain rfl : p = q := Option.some.inj point
    rfl
  case up.up.refl g h =>
    obtain rfl : g = h := finger
    rfl

def text : TouchEvent → String
  | .down f p => "down  #" ++ f.text ++ " " ++ p.text
  | .move f p => "move  #" ++ f.text ++ " " ++ p.text
  | .up f => "up    #" ++ f.text

end Touch

end TouchGesture
