import TouchGesture.Decimal.Text

/-! Numbers as JSON writes them, and what they denote. -/

namespace TouchGesture.Json

structure Numeral where
  negative : Bool := false
  whole : List Char
  fraction : List Char := []
  exponentNegative : Bool := false
  exponent : List Char := []
  deriving DecidableEq, Repr

inductive Amount where
  | integer (n : Int)
  | double (x : Float)

namespace Numeral

def ofNat (n : Nat) : Numeral where
  whole := Nat.toDigits 10 n

/-- Positional from `10 ^ -5` up to below `10 ^ 16`, and then always with a fraction. -/
def ofDecimal (negative : Bool) (d : Decimal) : Numeral :=
  let ds := Nat.toDigits 10 d.digits
  let power := d.leading
  if power < -5 ∨ 16 ≤ power then
    ⟨negative, ds.take 1, ds.drop 1, power < 0, Nat.toDigits 10 power.natAbs⟩
  else if 0 ≤ d.exponent then
    { negative, whole := ds ++ List.replicate d.exponent.toNat '0', fraction := ['0'] }
  else if 0 ≤ power then
    { negative, whole := ds.take (power.toNat + 1), fraction := ds.drop (power.toNat + 1) }
  else { negative, whole := ['0'], fraction := List.replicate (-power - 1).toNat '0' ++ ds }

def isNegative : Float.Model.UnpackedFloat.Sign → Bool
  | .negative => true
  | .positive => false

open Float.Model in
def ofFloat? (x : Float) : Option Numeral :=
  match x.toModel.unpack with
  | .notANumber | .infinity _ => none
  | .zero s => some (ofDecimal (isNegative s) ⟨0, 0⟩)
  | .finite s m q _ => some (ofDecimal (isNegative s) (Decimal.shortest .even x.abs m q))

def chars (n : Numeral) : List Char :=
  (if n.negative then ['-'] else []) ++ n.whole ++
    (if n.fraction.isEmpty then [] else '.' :: n.fraction) ++
    (if n.exponent.isEmpty then []
      else 'e' :: (if n.exponentNegative then '-' else '+') :: n.exponent)

def text (n : Numeral) : String := String.ofList n.chars

def fraction? (cs : List Char) : Option (List Char × List Char) :=
  match cs with
  | '.' :: rest =>
      let ds := rest.takeWhile Char.isDigit
      if ds.isEmpty then none else some (ds, rest.dropWhile Char.isDigit)
  | _ => some ([], cs)

def exponent? (cs : List Char) : Option (Bool × List Char × List Char) :=
  match cs with
  | c :: rest =>
      if c = 'e' ∨ c = 'E' then
        let (negative, rest) := match rest with
          | '-' :: rest => (true, rest)
          | '+' :: rest => (false, rest)
          | rest => (false, rest)
        let ds := rest.takeWhile Char.isDigit
        if ds.isEmpty then none else some (negative, ds, rest.dropWhile Char.isDigit)
      else some (false, [], cs)
  | [] => some (false, [], cs)

def lex? (cs : List Char) : Option (Numeral × List Char) := do
  let (negative, cs) := match cs with
    | '-' :: rest => (true, rest)
    | cs => (false, cs)
  let whole := cs.takeWhile Char.isDigit
  if whole.isEmpty ∨ (whole.head? = some '0' ∧ 1 < whole.length) then none
  let (fraction, cs) ← fraction? (cs.dropWhile Char.isDigit)
  let (exponentNegative, exponent, cs) ← exponent? cs
  return (⟨negative, whole, fraction, exponentNegative, exponent⟩, cs)

def gather (n : Nat) : List Char → Nat × List Char
  | [] => (n, [])
  | c :: rest =>
      let next := n * 10 + (c.toNat - '0'.toNat)
      if next < UInt64.size then gather next rest else (n, c :: rest)

/-- The double for `n * 10 ^ e`, in one multiplication or division of doubles, or in two divisions
below `10 ^ -308`. There is none beyond the largest double; below `10 ^ -616` nothing is left. -/
def scaled? (n : Nat) (e : Int) : Option Float :=
  let x := (UInt64.ofNat n).toFloat
  let power (k : Int) : Float := Decimal.toFloat ⟨1, k⟩
  if n = 0 then some 0
  else if 308 < e then none
  else if 0 ≤ e then
    let y := x * power e
    if y.isFinite then some y else none
  else if -308 ≤ e then some (x / power (-e))
  else if -616 ≤ e then some (x / power 308 / power (-e - 308))
  else some 0

/-- A double takes the leading digits that 64 bits hold and scales them. Numbers beyond its range
denote nothing. -/
def amount? (n : Numeral) : Option Amount :=
  let (leading, surplus) := gather 0 n.whole
  if n.fraction.isEmpty ∧ n.exponent.isEmpty ∧ surplus.isEmpty then
    if !n.negative then some (.integer leading)
    else if 0 < leading ∧ leading ≤ UInt64.size / 2 then some (.integer (-leading))
    else some (.double (-(UInt64.ofNat leading).toFloat))
  else
    let (digits, unread) := gather leading n.fraction
    let written : Int := Nat.ofDigitChars 10 n.exponent 0
    let e := surplus.length - (n.fraction.length - unread.length) +
      (if n.exponentNegative then -written else written)
    (scaled? digits e).map fun x => .double (if n.negative then -x else x)

end Numeral

namespace Amount

def toFloat : Amount → Float
  | .double x => x
  | .integer n =>
      let x := (UInt64.ofNat n.natAbs).toFloat
      if n < 0 then -x else x

end Amount

end TouchGesture.Json
