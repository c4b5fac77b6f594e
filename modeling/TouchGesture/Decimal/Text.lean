import TouchGesture.Decimal.Shortest

/-! The texts of doubles: plain, and with a fixed number of places. -/

namespace TouchGesture.Decimal

open Float.Model

def positional (d : Decimal) : List Char :=
  let ds := Nat.toDigits 10 d.digits
  let places := (-d.exponent).toNat
  if places = 0 then ds ++ List.replicate d.exponent.toNat '0'
  else if places < ds.length then
    ds.take (ds.length - places) ++ '.' :: ds.drop (ds.length - places)
  else '0' :: '.' :: (List.replicate (places - ds.length) '0' ++ ds)

def roundHalfEven (num den : Nat) : Nat :=
  let q := num / den
  match compare (2 * (num % den)) den with
  | .lt => q
  | .gt => q + 1
  | .eq => q + q % 2

def fixedLayout (places m : Nat) (q : Int) : List Char :=
  let (num, den) := ratio m q (-places)
  let ds := Nat.toDigits 10 (roundHalfEven num den)
  let padded := List.replicate (places + 1 - ds.length) '0' ++ ds
  padded.take (padded.length - places) ++ '.' :: padded.drop (padded.length - places)

def signed (sign : UnpackedFloat.Sign) (cs : List Char) : List Char :=
  match sign with
  | .negative => '-' :: cs
  | .positive => cs

def plainChars (x : Float) : List Char :=
  match x.toModel.unpack with
  | .notANumber => ['N', 'a', 'N']
  | .infinity s => signed s ['i', 'n', 'f']
  | .zero s => signed s (positional ⟨0, 0⟩)
  | .finite s m q _ => signed s (positional (shortest .up x.abs m q))

def fixedChars (places : Nat) (x : Float) : List Char :=
  match x.toModel.unpack with
  | .notANumber => ['N', 'a', 'N']
  | .infinity s => signed s ['i', 'n', 'f']
  | .zero s => signed s (fixedLayout places 0 0)
  | .finite s m q _ => signed s (fixedLayout places m q)

def plain (x : Float) : String := String.ofList (plainChars x)

def fixed (places : Nat) (x : Float) : String := String.ofList (fixedChars places x)

end TouchGesture.Decimal
