/-! The numbers that coordinates are made of: doubles on the screen, rationals where the same
formulas are read exactly. -/

namespace TouchGesture

class Coordinate (α : Type) extends Add α, Sub α, Mul α, Div α, Neg α where
  ofCount : UInt32 → α
  isFinite : α → Bool

instance : Coordinate Float where
  ofCount := UInt32.toFloat
  isFinite := Float.isFinite

instance : Coordinate Rat where
  ofCount n := (n.toNat : Rat)
  isFinite _ := true

end TouchGesture
