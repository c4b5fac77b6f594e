import TouchGesture.Data.Fault
import TouchGesture.Json.Numeral

/-! JSON values as they stand in a text, and why a text gives no value. -/

namespace TouchGesture

/-- A text that is not JSON keeps what came before: `cut` stands where a value could not be read, a
list or an object that does not end is not `closed`, and nothing follows either of them. A string
holds its characters as they are written, escapes and all; a key is a string, or else the last thing
read. -/
inductive Json where
  | null
  | bool (b : Bool)
  | number (n : Json.Numeral)
  | string (body : List Char)
  | array (items : List Json) (closed : Bool)
  | object (fields : List (Json × Json)) (closed : Bool)
  | cut

/-- Why a JSON text gives no value: it is not JSON, or not of the value's shape. Where that is found
in a value that was held back, its place in the text is no longer known. -/
inductive JsonFault where
  | malformed
  | data (fault : Data.Fault)
  | held (fault : Data.Fault)

namespace JsonFault

def wording : Data.Wording where
  null := "null"
  number x := ((Json.Numeral.ofFloat? x).map Json.Numeral.text).getD (Decimal.plain x)

def message : JsonFault → String
  | .malformed => "malformed text"
  | .data fault | .held fault => fault.message wording

def forgetPlace : JsonFault → JsonFault
  | .data fault => .held fault
  | fault => fault

end JsonFault

namespace Json

def ofNat (n : Nat) : Json := .number (.ofNat n)

def ofFloat (x : Float) : Json :=
  match Numeral.ofFloat? x with
  | some n => .number n
  | none => .null

def ofPlain (s : String) : Json := .string s.toList

def list {α : Type} (write : α → Json) (xs : List α) : Json := .array (xs.map write) true

def record (fields : List (String × Json)) : Json :=
  .object (fields.map fun f => (ofPlain f.1, f.2)) true

end Json

end TouchGesture
