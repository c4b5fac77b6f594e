import TouchGesture.Span

/-! A clock on which only sleeping passes the time. -/

namespace TouchGesture

/-- Both counts have 64 bits and wrap around. -/
structure VirtualClock where
  elapsed : UInt64 := 0
  sleeps : UInt64 := 0
  deriving DecidableEq, Repr

namespace VirtualClock

def ticks (s : Span) : UInt64 := UInt64.ofNat (min s.nanoseconds (UInt64.size - 1))

def now (c : VirtualClock) : Span := Span.ofNanoseconds c.elapsed.toNat

def fastForward (s : Span) (c : VirtualClock) : VirtualClock :=
  { c with elapsed := c.elapsed + ticks s }

def sleep (s : Span) (c : VirtualClock) : VirtualClock :=
  { c.fastForward s with sleeps := c.sleeps + 1 }

def reset (_ : VirtualClock) : VirtualClock := {}

end VirtualClock

end TouchGesture
