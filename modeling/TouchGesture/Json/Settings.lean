import TouchGesture.Json.Decode
import TouchGesture.Json.Print
import TouchGesture.Settings

/-! Settings in JSON. -/

namespace TouchGesture.Settings

open Json

def toJson (c : Settings) : Json := record (Field.all.map fun f => (f.name, .ofNat (c.get f)))

structure Draft where
  settings : Settings := {}
  seen : List Field := []

def Field.ofJson (f : Field) : Json → Decoded Nat := unsigned f.size f.kind

def Draft.take (d : Draft) (name : String) (item : Json) : Decoded Draft :=
  match Field.ofName? name with
  | none => fault (.unknownField name (Field.all.map Field.name))
  | some f => do
      if f ∈ d.seen then fault (.duplicateField name)
      return ⟨d.settings.set f (← f.ofJson item), f :: d.seen⟩

def ofItems (c : Settings) : List Field → List Json → Bool → Decoded Settings
  | f :: fields, item :: items, closed => do
      ofItems (c.set f (← f.ofJson item)) fields items closed
  | _, [], true => .ok c
  | _, _, _ => .error .malformed

def ofJson : Json → Decoded Settings
  | .object fields closed => Draft.settings <$> foldFields fields closed {} Draft.take
  | .array items closed => ofItems {} Field.all items closed
  | j => mismatch "struct GestureConfig" j

end TouchGesture.Settings
