import TouchGesture.Decimal.Basic

/-! The fewest digits that read back to a double, selected by exact arithmetic on `m * 2 ^ q`. -/

namespace TouchGesture.Decimal

def below (m : Nat) (q k : Int) : Bool :=
  (m <<< q.toNat) * Nat.pow 10 (-k).toNat < Nat.pow 10 k.toNat <<< (-q).toNat

def scale (m : Nat) (q : Int) : Int :=
  let low := ((m.log2 + q) * 30103).fdiv 100000
  if below m q low then low
  else if below m q (low + 1) then low + 1
  else if below m q (low + 2) then low + 2
  else low + 3

def ratio (m : Nat) (q e : Int) : Nat × Nat :=
  ((m <<< q.toNat) * Nat.pow 10 (-e).toNat, Nat.pow 10 e.toNat <<< (-q).toNat)

/-- Of the two neighbours of `m * 2 ^ q` on the grid `10 ^ e`, the one that reads back to `x`; of
two that do, the nearer, and on a tie the one that `tie` names. -/
def onGrid (tie : Tie) (x : Float) (m : Nat) (q e : Int) : Option Decimal :=
  let (num, den) := ratio m q e
  let low : Decimal := ⟨num / den, e⟩
  let high : Decimal := ⟨num / den + 1, e⟩
  match decide (low.toFloat = x), decide (high.toFloat = x) with
  | true, true =>
      match compare (2 * (num % den)) den, tie with
      | .lt, _ => some low
      | .gt, _ => some high
      | .eq, .up => some high
      | .eq, .even => some (if low.digits % 2 = 0 then low else high)
  | true, false => some low
  | false, true => some high
  | false, false => none

def exact (m : Nat) (q : Int) : Decimal :=
  ⟨(m <<< q.toNat) * Nat.pow 5 (-q).toNat, min q 0⟩

/-- The decimal with the fewest digits that reads back to `x = m * 2 ^ q`, nearest to it among
those. Seventeen digits are enough for every double. -/
def shortest (tie : Tie) (x : Float) (m : Nat) (q : Int) : Decimal :=
  let k := scale m q
  (((List.range 17).findSome? fun n : Nat => onGrid tie x m q (k - 1 - n)).getD (exact m q)).normal

end TouchGesture.Decimal
