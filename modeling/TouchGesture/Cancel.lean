/-! Tokens that ask a running gesture to stop. Several tokens can stand for one request. -/

namespace TouchGesture

/-- A token names the request that it stands for; copies of it name the same one. -/
structure CancelToken where
  request : Nat
  deriving DecidableEq, Repr

structure CancelBoard where
  raised : List Bool := []

namespace CancelBoard

def issue (b : CancelBoard) : CancelToken × CancelBoard :=
  (⟨b.raised.length⟩, ⟨b.raised ++ [false]⟩)

def cancel (t : CancelToken) (b : CancelBoard) : CancelBoard := ⟨b.raised.set t.request true⟩

def reset (t : CancelToken) (b : CancelBoard) : CancelBoard := ⟨b.raised.set t.request false⟩

def isCancelled (b : CancelBoard) (t : CancelToken) : Bool := b.raised.getD t.request false

end CancelBoard

end TouchGesture
