import TouchGesture.Decimal.Literal
import TouchGesture.Yaml.Document
import TouchGesture.Yaml.Fault

/-! What plain scalars denote. -/

namespace TouchGesture.Yaml

open Data (Found)

def digits? (base : Nat) (cs : List Char) : Option Nat :=
  let value (c : Char) : Option Nat := (Text.hexDigit? c).filter (· < base)
  if cs.isEmpty then none
  else cs.foldlM (fun n c => (value c).map fun d => n * base + d) 0

def based? : List Char → Option (Nat × List Char)
  | '0' :: 'x' :: rest => some (16, rest)
  | '0' :: 'o' :: rest => some (8, rest)
  | '0' :: 'b' :: rest => some (2, rest)
  | _ => none

def decimal? : List Char → Option Nat
  | '0' :: c :: rest => if (c :: rest).all Char.isDigit then none else digits? 10 ('0' :: c :: rest)
  | cs => digits? 10 cs

def magnitude? (cs : List Char) : Option Nat :=
  match based? cs with
  | some (base, rest) => digits? base rest
  | none => decimal? cs

def unsigned? : List Char → Option Nat
  | '+' :: rest => magnitude? rest
  | cs => magnitude? cs

def integer? : List Char → Option Int
  | '-' :: rest => (magnitude? rest).map fun n => -n
  | cs => (unsigned? cs).map Int.ofNat

def null? (s : String) : Bool := s ∈ ["null", "Null", "NULL", "~"]

def boolean? (s : String) : Option Bool :=
  if s ∈ ["true", "True", "TRUE"] then some true
  else if s ∈ ["false", "False", "FALSE"] then some false
  else none

def foundInteger? (cs : List Char) : Option Found :=
  (integer? cs).bind fun n =>
    let word : Int := UInt64.size
    if -word ≤ 2 * n ∧ n < word then some (.integer n)
    else if -(word * word) ≤ 2 * n ∧ n < word * word then some (.wideInteger n)
    else none

def double? (cs : List Char) : Option Float :=
  let word := String.ofList cs
  let (plus, rest) := match cs with
    | '+' :: rest => (true, rest)
    | cs => (false, cs)
  if plus ∧ (rest.head? = some '+' ∨ rest.head? = some '-') then none
  else if String.ofList rest ∈ [".inf", ".Inf", ".INF"] then some (1.0 / 0.0)
  else if word ∈ ["-.inf", "-.Inf", "-.INF"] then some (-1.0 / 0.0)
  else if word ∈ [".nan", ".NaN", ".NAN"] then some (0.0 / 0.0)
  else
    match Decimal.literal rest with
    | .ok x => if x.isFinite then some x else none
    | .error _ => none

def zeroPadded (cs : List Char) : Bool :=
  let ds := match cs with
    | '-' :: rest | '+' :: rest => rest
    | cs => cs
  1 < ds.length && ds.head? = some '0' && ds.all Char.isDigit

/-- What a plain scalar without a tag stands for. -/
def foundPlain (s : String) : Found :=
  if s = "" ∨ null? s then .null
  else
    match boolean? s, foundInteger? s.toList with
    | some b, _ => .boolean b
    | none, some found => found
    | none, none =>
        match if zeroPadded s.toList then none else double? s.toList with
        | some x => .number x
        | none => .string s

def scalarMismatch (expected : String) (tag : Option Tag) (style : Style)
    (s : String) : Data.Fault :=
  let tagged (found : Option Found) (kind : String) : Data.Fault :=
    match found with
    | some found => .invalidType found expected
    | none => .invalidValue (.string s) kind
  match tag with
  | none => .invalidType (if style = .plain then foundPlain s else .string s) expected
  | some tag =>
      if tag = .core "bool" then tagged ((boolean? s).map .boolean) "a boolean"
      else if tag = .core "int" then tagged (foundInteger? s.toList) "an integer"
      else if tag = .core "float" then tagged ((double? s.toList).map .number) "a float"
      else if tag = .core "null" then tagged (if null? s then some .null else none) "null"
      else if tag.isLocal ∧ style = .plain then .invalidType (foundPlain s) expected
      else .invalidType (.string s) expected

def mismatch (expected : String) : Node → Data.Fault
  | .scalar tag style s => scalarMismatch expected tag style s
  | .collection .sequence => .invalidType .sequence expected
  | .collection .mapping => .invalidType .map expected

def unsigned (size : Nat) (kind : String) (n : Node) : Except Data.Fault Nat :=
  match n with
  | .scalar tag style s =>
      let readable := style = .plain ∨ (style = .literal ∧ tag = some (.core "int"))
      match if readable then (unsigned? s.toList).filter (· < UInt64.size) else none with
      | some i => if i < size then .ok i else .error (.invalidValue (.integer i) kind)
      | none => .error (mismatch kind n)
  | n => .error (mismatch kind n)

end TouchGesture.Yaml
