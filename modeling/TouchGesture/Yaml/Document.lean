import TouchGesture.Yaml.Event

/-! The first document of a YAML text, as far as it goes, with its aliases resolved. -/

namespace TouchGesture.Yaml

inductive Node where
  | scalar (tag : Option Tag) (style : Style) (text : String)
  | collection (kind : Collection)

/-- One thing after another in a document: a node, which an alias may stand for, or the end of a
collection. -/
inductive Item where
  | node (n : Node) (aliased : Bool)
  | closing

/-- The anchors so far. An anchor is numbered by the count of names before it, and a later one may
take over its number. -/
abbrev Anchors := List (String × Nat)

namespace Anchors

def define (anchors : Anchors) (name : String) : Anchors :=
  (name, anchors.length) :: anchors.filter fun a => a.1 ≠ name

def number? (anchors : Anchors) : Event → Option (Option Nat × Anchors)
  | .scalar (some name) .. | .opening (some name) _ =>
      some (some anchors.length, anchors.define name)
  | .alias name => (anchors.lookup name).map fun n => (some n, anchors)
  | _ => some (none, anchors)

def numbered (anchors : Anchors) : List Event → List (Event × Option Nat)
  | [] => []
  | e :: rest =>
      match anchors.number? e with
      | none => []
      | some (n, anchors) => (e, n) :: anchors.numbered rest

end Anchors

def Event.node? : Event → Option Node
  | .scalar _ tag style text => some (.scalar tag style text)
  | .opening _ kind => some (.collection kind)
  | .alias _ | .closing => none

def target? (events : List (Event × Option Nat)) (n : Nat) : Option Node :=
  (events.reverse.filter fun e => e.2 = some n).findSome? fun e => e.1.node?

def item (events : List (Event × Option Nat)) (e : Event × Option Nat) : Item :=
  match e.1.node?, e.2.bind (target? events) with
  | some n, _ => .node n false
  | none, some n => .node n true
  | none, none => .closing

structure Document where
  items : List Item := []
  whole : Bool

namespace Document

def directives (versioned : Bool) (handles : Handles) :
    List Token → Option (Handles × List Token)
  | .version major minor :: rest =>
      if versioned ∨ major ≠ 1 ∨ (minor ≠ 1 ∧ minor ≠ 2) then none
      else directives true handles rest
  | .tagHandle handle expansion :: rest =>
      if (handles.lookup handle).isSome then none
      else directives versioned ((handle, expansion) :: handles) rest
  | .documentStart :: rest => some (handles ++ Handles.standard, rest)
  | _ => none

def ofEvents (events : List Event) (whole : Bool) : Document :=
  let numbered := Anchors.numbered [] events
  ⟨numbered.map (item numbered), whole && numbered.length = events.length⟩

def ofRoot (handles : Handles) (announced : Bool) (tokens : List Token) : Document :=
  let (events, whole) :=
    Pending.events handles [.node (.root announced) none none, .documentEnd] tokens
  ofEvents events whole

def ofTokens : List Token → Document
  | [.streamEnd] => { whole := true }
  | tokens =>
      match tokens with
      | .version .. :: _ | .tagHandle .. :: _ | .documentStart :: _ =>
          match directives false [] tokens with
          | none => { whole := false }
          | some (handles, rest) => ofRoot handles true rest
      | tokens => ofRoot Handles.standard false tokens

def ofText (s : String) : Document := ofTokens (tokensOf s.toList)

end Document

end TouchGesture.Yaml
