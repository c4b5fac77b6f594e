import TouchGesture.Touch.Event

/-! What accepts touches, and why it may refuse one. -/

namespace TouchGesture

inductive Refusal where
  | alreadyDown (finger : Finger)
  | notDown (finger : Finger)
  | noFreeSlot (max : Nat)
  | injected (index : Nat)
  | backend (message : String)
  deriving DecidableEq, Repr

def Refusal.message : Refusal → String
  | .alreadyDown f => "Cannot press finger " ++ f.text ++ ": it's already pressed"
  | .notDown f => "Finger " ++ f.text ++ " is not pressed"
  | .noFreeSlot max => "All " ++ toString max ++ " touch slots are in use"
  | .injected index => "Injected failure at event #" ++ toString index
  | .backend message => "Touch backend error: " ++ message

/-- How a device answers a touch. A device that crashes gives no answer, and keeps what it had done
by then. -/
inductive Verdict where
  | accepted
  | rejected (refusal : Refusal)
  | crashed
  deriving DecidableEq, Repr

structure Device (σ : Type) where
  touch : TouchEvent → σ → Verdict × σ

/-- A device behind a lock. Once a holder of the lock has crashed, nobody gets the device again. -/
structure SharedDevice (σ : Type) where
  device : σ
  poisoned : Bool := false

namespace SharedDevice

variable {σ : Type}

def poison (s : SharedDevice σ) : SharedDevice σ := { s with poisoned := true }

def lock (s : SharedDevice σ) : Except Refusal σ :=
  if s.poisoned then .error (.backend "touch device lock poisoned") else .ok s.device

end SharedDevice

end TouchGesture
