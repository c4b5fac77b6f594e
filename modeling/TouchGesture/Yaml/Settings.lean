import TouchGesture.Settings
import TouchGesture.Yaml.Value

/-! Settings in YAML. -/

namespace TouchGesture.Settings

open Yaml

def keyName : Node → Except YamlFault String
  | .scalar _ _ s => .ok s
  | n => .error (.data none (mismatch "field identifier" n))

structure YamlDraft where
  settings : Settings := {}
  seen : List Field := []

namespace YamlDraft

def field (d : YamlDraft) (key : Node) : Except YamlFault Field := do
  let name ← keyName key
  match Field.ofName? name with
  | none => throw (.data none (.unknownField name (Field.all.map Field.name)))
  | some f => if f ∈ d.seen then throw (.data none (.duplicateField name)) else return f

def set (d : YamlDraft) (f : Field) (aliased : Bool) (value : Node) : Except YamlFault YamlDraft :=
  match unsigned f.size f.kind value with
  | .ok n => .ok ⟨d.settings.set f n, f :: d.seen⟩
  | .error fault => .error (.data (some (if aliased then "?" else f.name)) fault)

/-- Takes the entries of a mapping up to its end. A key is judged before its value is looked at. -/
def take (d : YamlDraft) : List Item → Except YamlFault Settings
  | .closing :: _ => .ok d.settings
  | .node key aliased :: rest => do
      let f ← d.field key
      match rest with
      | .node value _ :: rest => (← d.set f aliased value).take rest
      | _ => throw .malformed
  | [] => .error .malformed

end YamlDraft

def ofYamlItems (whole : Bool) : List Item → Except YamlFault Settings
  | [] => if whole then .ok {} else .error .malformed
  | .node (.collection .mapping) _ :: rest => YamlDraft.take {} rest
  | .node (.scalar tag style s) _ :: _ =>
      if style = .plain ∧ s = "" then .ok {}
      else .error (.data none (scalarMismatch "struct GestureConfig" tag style s))
  | .node n _ :: _ => .error (.data none (mismatch "struct GestureConfig" n))
  | .closing :: _ => .error .malformed

def ofYaml (s : String) : Except YamlFault Settings := do
  let document := Document.ofText s
  let c ← ofYamlItems document.whole document.items
  if document.whole then return c else throw .malformed

end TouchGesture.Settings
