/-! Lengths of time, counted in nanoseconds. -/

namespace TouchGesture

abbrev Span.limit : Nat := UInt64.size * 1000000000

structure Span where
  nanoseconds : Nat
  bounded : nanoseconds < Span.limit := by decide
  deriving DecidableEq, Repr

namespace Span

def longest : Span where
  nanoseconds := limit - 1

def ofNanoseconds (n : Nat) : Span :=
  if h : n < limit then ⟨n, h⟩ else longest

def ofMilliseconds (ms : UInt64) : Span where
  nanoseconds := ms.toNat * 1000000
  bounded := by have := ms.toNat_lt_size; unfold limit; omega

def ofParts? (seconds : UInt64) (nanos : UInt32) : Option Span :=
  if h : 1000000000 * seconds.toNat + nanos.toNat < limit then some ⟨_, h⟩ else none

def seconds (s : Span) : Nat := s.nanoseconds / 1000000000

def subsecond (s : Span) : Nat := s.nanoseconds % 1000000000

def microseconds (s : Span) : Nat := s.nanoseconds / 1000

def times (s : Span) (n : Nat) : Span := ofNanoseconds (s.nanoseconds * n)

/-- Seconds and nanoseconds each turned into a double, then added, then turned into milliseconds. -/
def milliseconds (s : Span) : Float :=
  ((UInt64.ofNat s.seconds).toFloat + (UInt64.ofNat s.subsecond).toFloat / 1000000000.0) * 1000.0

end Span

end TouchGesture
