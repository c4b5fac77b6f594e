import TouchGesture.Json.Text

/-! What JSON values mean. Values are taken in the order in which they stand in the text, so the
first fault is the one reported, be it in the data or in the text. -/

namespace TouchGesture.Json

abbrev Decoded (α : Type) := Except JsonFault α

def fault {α : Type} (f : Data.Fault) : Decoded α := .error (.data f)

def characters (body : List Char) : Decoded String :=
  match unescape? body with
  | some cs => .ok (String.ofList cs)
  | none => .error .malformed

def amount (n : Numeral) : Decoded Amount :=
  match n.amount? with
  | some a => .ok a
  | none => .error .malformed

def Amount.found : Amount → Data.Found
  | .integer n => .integer n
  | .double x => .number x

def mismatch {α : Type} (expected : String) : Json → Decoded α
  | .null => fault (.invalidType .null expected)
  | .bool b => fault (.invalidType (.boolean b) expected)
  | .number n => do fault (.invalidType (← amount n).found expected)
  | .string body => do fault (.invalidType (.string (← characters body)) expected)
  | .array .. => fault (.invalidType .sequence expected)
  | .object .. => fault (.invalidType .map expected)
  | .cut => .error .malformed

def double : Json → Decoded Float
  | .number n => do return (← amount n).toFloat
  | j => mismatch "f64" j

def unsigned (size : Nat) (kind : String) : Json → Decoded Nat
  | .number n => do
      match ← amount n with
      | .integer i =>
          if 0 ≤ i ∧ i < size then return i.toNat else fault (.invalidValue (.integer i) kind)
      | .double x => fault (.invalidType (.number x) kind)
  | j => mismatch kind j

def word32 (j : Json) : Decoded UInt32 := UInt32.ofNat <$> unsigned UInt32.size "u32" j

def word64 (j : Json) : Decoded UInt64 := UInt64.ofNat <$> unsigned UInt64.size "u64" j

def keyName : Json → Decoded String
  | .string body => characters body
  | _ => .error .malformed

def foldFields {σ : Type} (fields : List (Json × Json)) (closed : Bool) (start : σ)
    (take : σ → String → Json → Decoded σ) : Decoded σ := do
  let state ← fields.foldlM (fun state (key, item) => do take state (← keyName key) item) start
  if closed then return state else .error .malformed

def once {α : Type} (slot : Option α) (name : String) (item : Decoded α) : Decoded (Option α) :=
  match slot with
  | some _ => fault (.duplicateField name)
  | none => some <$> item

def required {α : Type} (name : String) : Option α → Decoded α
  | some a => .ok a
  | none => fault (.missingField name)

def next (taken : Nat) (expected : String) :
    List Json × Bool → Decoded (Json × List Json × Bool)
  | (item :: items, closed) => .ok (item, items, closed)
  | ([], true) => fault (.invalidLength taken expected)
  | ([], false) => .error .malformed

/-- Whether a list is read straight from the text, where an item too many is no longer JSON of the
right shape, or from a value held back, where it is a fault of its length. -/
inductive Source where
  | text
  | held

def finish (source : Source) (taken : Nat) : List Json × Bool → Decoded Unit
  | ([], true) => .ok ()
  | (surplus, _) =>
      match source with
      | .text => .error .malformed
      | .held =>
          fault (.invalidLength (taken + surplus.length)
            (toString taken ++ if taken = 1 then " element in sequence"
              else " elements in sequence"))

def listOf {α : Type} (item : Json → Decoded α) : Json → Decoded (List α)
  | .array items closed => do
      let values ← items.mapM item
      if closed then return values else .error .malformed
  | j => mismatch "a sequence" j

mutual

/-- Whether a value can be held back until it is known what it should be: its text is whole, its
numbers and strings stand for something, and lists and objects are nested less than 128 deep;
`depth` of them stand around it. -/
def holdable : Nat → Json → Bool
  | _, .null | _, .bool _ => true
  | _, .number n => n.amount?.isSome
  | _, .string body => (unescape? body).isSome
  | depth, .array items closed => depth + 1 < 128 && holdableItems (depth + 1) items && closed
  | depth, .object fields closed => depth + 1 < 128 && holdableFields (depth + 1) fields && closed
  | _, .cut => false

def holdableItems : Nat → List Json → Bool
  | _, [] => true
  | depth, item :: items => holdable depth item && holdableItems depth items

def holdableFields : Nat → List (Json × Json) → Bool
  | _, [] => true
  | depth, (key, item) :: fields =>
      holdable depth key && holdable depth item && holdableFields depth fields

end

def decode {α : Type} (meaning : Json → Decoded α) (s : String) : Decoded α := do
  let (j, whole) := ofText s
  let a ← meaning j
  if whole then return a else .error .malformed

end TouchGesture.Json
