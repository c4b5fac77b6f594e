import TouchGesture.Coordinate
import TouchGesture.Decimal.Text

/-! Points on a screen, which are also the offsets between them. -/

namespace TouchGesture

structure Point (α : Type) where
  x : α
  y : α
  deriving DecidableEq, Repr

abbrev Position := Point Float

namespace Point

section Arithmetic

variable {α : Type} [Coordinate α]

instance : Add (Point α) := ⟨fun a b => ⟨a.x + b.x, a.y + b.y⟩⟩
instance : Sub (Point α) := ⟨fun a b => ⟨a.x - b.x, a.y - b.y⟩⟩
instance : Neg (Point α) := ⟨fun a => ⟨-a.x, -a.y⟩⟩
instance : HMul (Point α) α (Point α) := ⟨fun a k => ⟨a.x * k, a.y * k⟩⟩
instance : HDiv (Point α) α (Point α) := ⟨fun a k => ⟨a.x / k, a.y / k⟩⟩

def reflectThrough (p pivot : Point α) : Point α := pivot - (p - pivot)

def isFinite (p : Point α) : Bool := Coordinate.isFinite p.x && Coordinate.isFinite p.y

end Arithmetic

theorem isFinite_iff {p : Position} : p.isFinite ↔ p.x.isFinite ∧ p.y.isFinite :=
  Bool.and_eq_true_iff

def origin : Position := ⟨0, 0⟩

open Float.Model in
/-- The square root of `x ^ 2 + y ^ 2`, rounded once. An infinite side makes it infinite even beside
not-a-number. -/
def hypot (x y : Float) : Float :=
  let side : UnpackedFloat → Nat × Int
    | .finite _ m e _ => (m, e)
    | _ => (0, 0)
  match x.toModel.unpack, y.toModel.unpack with
  | .infinity _, _ | _, .infinity _ => 1.0 / 0.0
  | .notANumber, _ | _, .notANumber => 0.0 / 0.0
  | a, b =>
      let (m, e) := side a
      let (n, f) := side b
      let low := min e f
      let u := m <<< (e - low).toNat
      let v := n <<< (f - low).toNat
      if h : 0 < u * u + v * v then
        .ofModel (pack (UnpackedFloat.sqrt Format.binary64 (.finite .positive _ (2 * low) h)))
      else 0

def length (p : Position) : Float := hypot p.x p.y

def distanceTo (p q : Position) : Float := (q - p).length

def near (p q : Position) (epsilon : Float) : Bool :=
  (p.x - q.x).abs ≤ epsilon && (p.y - q.y).abs ≤ epsilon

def same (p q : Position) : Bool := p.x == q.x && p.y == q.y

def text (p : Position) : String :=
  "(" ++ Decimal.plain p.x ++ ", " ++ Decimal.plain p.y ++ ")"

end Point

end TouchGesture
