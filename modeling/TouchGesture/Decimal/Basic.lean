/-! Decimal numbers and the doubles they denote. -/

namespace TouchGesture

structure Decimal where
  digits : Nat
  exponent : Int
  deriving DecidableEq, Repr

namespace Decimal

def dropZeros : Nat → Decimal → Decimal
  | 0, d => d
  | fuel + 1, d =>
      if d.digits % 10 = 0 then dropZeros fuel ⟨d.digits / 10, d.exponent + 1⟩ else d

def normal (d : Decimal) : Decimal :=
  if d.digits = 0 then ⟨0, 0⟩ else dropZeros d.digits.log2 d

/-- The double nearest to the number, ties to even. Equal numbers denote one double, so the
reading goes through the normal form. -/
def toFloat (d : Decimal) : Float :=
  let n := d.normal
  Float.ofScientific n.digits (n.exponent < 0) n.exponent.natAbs

inductive Tie where
  | up
  | even

def leading (d : Decimal) : Int :=
  (Nat.toDigits 10 d.digits).length - 1 + d.exponent

end Decimal

end TouchGesture
