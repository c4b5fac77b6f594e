import TouchGesture.Text.Quoted

/-! What a reader of structured data finds wrong with data that is well written. -/

namespace TouchGesture.Data

/-- What stands where something else was expected. Integers beyond 64 bits are told apart. -/
inductive Found where
  | null
  | boolean (b : Bool)
  | integer (n : Int)
  | wideInteger (n : Int)
  | number (x : Float)
  | string (s : String)
  | sequence
  | map

inductive Fault where
  | invalidType (found : Found) (expected : String)
  | invalidValue (found : Found) (expected : String)
  | invalidLength (length : Nat) (expected : String)
  | unknownField (name : String) (expected : List String)
  | unknownVariant (name : String) (expected : List String)
  | missingField (name : String)
  | duplicateField (name : String)
  | spanOverflow

structure Wording where
  null : String
  number : Float → String

def Found.text (w : Wording) : Found → String
  | .null => w.null
  | .boolean b => "boolean `" ++ toString b ++ "`"
  | .integer n => "integer `" ++ toString n ++ "`"
  | .wideInteger n => "integer `" ++ toString n ++ "` as " ++ if n < 0 then "i128" else "u128"
  | .number x => "floating point `" ++ w.number x ++ "`"
  | .string s => "string " ++ Text.quoted s
  | .sequence => "sequence"
  | .map => "map"

def oneOf (names : List String) : String :=
  match names.map fun n => "`" ++ n ++ "`" with
  | [] => "nothing"
  | [a] => a
  | [a, b] => a ++ " or " ++ b
  | many => "one of " ++ ", ".intercalate many

def Fault.message (w : Wording) : Fault → String
  | .invalidType found expected => "invalid type: " ++ found.text w ++ ", expected " ++ expected
  | .invalidValue found expected => "invalid value: " ++ found.text w ++ ", expected " ++ expected
  | .invalidLength length expected =>
      "invalid length " ++ toString length ++ ", expected " ++ expected
  | .unknownField name expected => "unknown field `" ++ name ++ "`, expected " ++ oneOf expected
  | .unknownVariant name expected => "unknown variant `" ++ name ++ "`, expected " ++ oneOf expected
  | .missingField name => "missing field `" ++ name ++ "`"
  | .duplicateField name => "duplicate field `" ++ name ++ "`"
  | .spanOverflow => "overflow deserializing Duration"

end TouchGesture.Data
