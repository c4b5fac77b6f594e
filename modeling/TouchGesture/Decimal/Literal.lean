import TouchGesture.Decimal.Basic

/-! Decimal literals as a person writes them: a sign, digits with an optional point, an exponent,
and the words for infinity and not-a-number. -/

namespace TouchGesture.Decimal

inductive Magnitude where
  | number (value : Decimal)
  | infinity
  | notANumber

def exponent? : List Char → Option Int
  | [] => some 0
  | c :: rest =>
      if c = 'e' ∨ c = 'E' then
        let (negative, ds) := match rest with
          | '-' :: ds => (true, ds)
          | '+' :: ds => (false, ds)
          | ds => (false, ds)
        if ds.isEmpty ∨ ¬ ds.all Char.isDigit then none
        else
          let n : Int := Nat.ofDigitChars 10 ds 0
          some (if negative then -n else n)
      else none

/-- Digits with at most one point, at least one digit in all, then the exponent. -/
def number? (cs : List Char) : Option Decimal :=
  let whole := cs.takeWhile Char.isDigit
  let (fraction, rest) := match cs.dropWhile Char.isDigit with
    | '.' :: more => (more.takeWhile Char.isDigit, more.dropWhile Char.isDigit)
    | rest => ([], rest)
  if whole.isEmpty ∧ fraction.isEmpty then none
  else (exponent? rest).map fun e =>
    ⟨Nat.ofDigitChars 10 (whole ++ fraction) 0, e - fraction.length⟩

def magnitude? (cs : List Char) : Option Magnitude :=
  let word := String.ofList (cs.map Char.toLower)
  if word = "inf" ∨ word = "infinity" then some .infinity
  else if word = "nan" then some .notANumber
  else (number? cs).map .number

def Magnitude.toFloat : Magnitude → Float
  | .number d => d.toFloat
  | .infinity => 1.0 / 0.0
  | .notANumber => 0.0 / 0.0

inductive LiteralFault where
  | empty
  | malformed
  deriving DecidableEq, Repr

def LiteralFault.message : LiteralFault → String
  | .empty => "cannot parse float from empty string"
  | .malformed => "invalid float literal"

def literal (cs : List Char) : Except LiteralFault Float :=
  let (negative, rest) := match cs with
    | '-' :: rest => (true, rest)
    | '+' :: rest => (false, rest)
    | rest => (false, rest)
  match cs, magnitude? rest with
  | [], _ => .error .empty
  | _, none => .error .malformed
  | _, some value => .ok (if negative then -value.toFloat else value.toFloat)

end TouchGesture.Decimal
