import TouchGesture.Yaml.Token

/-! The events of a YAML document: its scalars and aliases in order, and where its collections begin
and end. Tokens are taken one by one, against a stack of what is still to come. -/

namespace TouchGesture.Yaml

inductive Collection where
  | sequence
  | mapping
  deriving DecidableEq, Repr

inductive Event where
  | scalar (anchor : Option String) (tag : Option Tag) (style : Style) (text : String)
  | alias (name : String)
  | opening (anchor : Option String) (kind : Collection)
  | closing
  deriving DecidableEq, Repr

def Event.absent : Event := .scalar none none .plain ""

/-- What a node is to what surrounds it: the root of a document, which a mark may have announced; an
entry of a block sequence, and of a loose one; a key or a value of a block mapping, its `part`; an
entry inside brackets or braces; a key after a question mark, and a value, in braces; the value of a
pair. -/
inductive Role where
  | root (announced : Bool)
  | entry
  | looseEntry
  | part
  | flowEntry
  | flowKey
  | flowValue
  | pairValue
  deriving DecidableEq

namespace Role

def inBlock : Role → Bool
  | .root _ | .entry | .looseEntry | .part => true
  | .flowEntry | .flowKey | .flowValue | .pairValue => false

def isVacant : Role → Token → Bool
  | .root announced, t =>
      match t with
      | .version .. | .tagHandle .. | .documentStart | .documentEnd | .streamEnd => announced
      | _ => false
  | .entry, t => t = .blockEntry || t = .blockEnd
  | .looseEntry, t => t = .blockEntry || t = .key || t = .value || t = .blockEnd
  | .part, t => t = .key || t = .value || t = .blockEnd
  | .flowEntry, _ => false
  | .flowKey, t => t = .value || t = .flowEntry || t = .flowMappingEnd
  | .flowValue, t => t = .flowEntry || t = .flowMappingEnd
  | .pairValue, t => t = .flowEntry || t = .flowSequenceEnd

end Role

/-- What is to come: a node, with an anchor and a tag in front of it so far; the rest of a
collection, which starts with a separator unless it is `fresh`; or nothing but the end of the text.
The entries of a loose sequence are no deeper than the key before them, and a pair is an entry of a
sequence in brackets that is a mapping by itself. -/
inductive Pending where
  | node (role : Role) (anchor : Option String) (tag : Option Tag)
  | sequence
  | looseSequence
  | mapping
  | mappingValue
  | flowSequence (fresh : Bool)
  | pair
  | pairValue
  | pairEnd
  | flowMapping (fresh : Bool)
  | flowMappingValue
  | noValue
  | documentEnd

/-- The events that a token brings about, and what is to come after it. That is missing where the
token may not stand. -/
abbrev Progress := List Event × Option (List Pending)

namespace Progress

def refused : Progress := ([], none)

def next (pending : List Pending) : Progress := ([], some pending)

def emit (e : Event) (p : Progress) : Progress := (e :: p.1, p.2)

end Progress

namespace Pending

open Progress

def nodeToken? (handles : Handles) (role : Role) (anchor : Option String) (tag : Option Tag)
    (outer : List Pending) : Token → Option Progress
  | .alias name =>
      if anchor.isNone ∧ tag.isNone then some (emit (.alias name) (next outer)) else none
  | .anchor name => if anchor.isNone then some (next (node role name tag :: outer)) else none
  | .tag handle suffix =>
      if tag.isSome then none
      else
        match handles.resolve? handle suffix with
        | some tag => some (next (node role anchor tag :: outer))
        | none => some refused
  | .scalar style text => some (emit (.scalar anchor tag style text) (next outer))
  | .flowSequenceStart =>
      some (emit (.opening anchor .sequence) (next (flowSequence true :: outer)))
  | .flowMappingStart => some (emit (.opening anchor .mapping) (next (flowMapping true :: outer)))
  | .blockSequenceStart =>
      if role.inBlock then some (emit (.opening anchor .sequence) (next (sequence :: outer)))
        else none
  | .blockMappingStart =>
      if role.inBlock then some (emit (.opening anchor .mapping) (next (mapping :: outer)))
        else none
  | .blockEntry =>
      if role = .part then
        some (emit (.opening anchor .sequence)
          (next (node .looseEntry none none :: looseSequence :: outer)))
      else none
  | _ => none

def startNode (handles : Handles) (role : Role) (outer : List Pending) (t : Token) : Progress :=
  (nodeToken? handles role none none outer t).getD refused

def mappingToken (outer : List Pending) : Token → Progress
  | .key => next (node .part none none :: mappingValue :: outer)
  | .blockEnd => emit .closing (next outer)
  | _ => refused

def flowSequenceToken (handles : Handles) (fresh : Bool) (outer : List Pending)
    (t : Token) : Progress :=
  match t, fresh with
  | .flowSequenceEnd, _ => emit .closing (next outer)
  | .flowEntry, false => next (flowSequence true :: outer)
  | _, false => refused
  | .key, true => emit (.opening none .mapping) (next (pair :: outer))
  | t, true => startNode handles .flowEntry (flowSequence false :: outer) t

def flowMappingToken (handles : Handles) (fresh : Bool) (outer : List Pending)
    (t : Token) : Progress :=
  match t, fresh with
  | .flowMappingEnd, _ => emit .closing (next outer)
  | .flowEntry, false => next (flowMapping true :: outer)
  | _, false => refused
  | .key, true => next (node .flowKey none none :: flowMappingValue :: outer)
  | t, true => startNode handles .flowEntry (noValue :: outer) t

def endPair (handles : Handles) (outer : List Pending) (t : Token) : Progress :=
  emit .closing (flowSequenceToken handles false outer t)

def take (handles : Handles) : List Pending → Token → Progress
  | [], _ => refused
  | p :: outer, t =>
      match p with
      | .node role anchor tag =>
          if anchor.isNone ∧ tag.isNone ∧ role.isVacant t then
            emit .absent (take handles outer t)
          else
            match nodeToken? handles role anchor tag outer t with
            | some progress => progress
            | none =>
                if anchor.isSome ∨ tag.isSome then
                  emit (.scalar anchor tag .plain "") (take handles outer t)
                else refused
      | .sequence =>
          match t with
          | .blockEntry => next (node .entry none none :: sequence :: outer)
          | .blockEnd => emit .closing (next outer)
          | _ => refused
      | .looseSequence =>
          match t with
          | .blockEntry => next (node .looseEntry none none :: looseSequence :: outer)
          | t => emit .closing (take handles outer t)
      | .mapping => mappingToken outer t
      | .mappingValue =>
          match t with
          | .value => next (node .part none none :: mapping :: outer)
          | t => emit .absent (mappingToken outer t)
      | .flowSequence fresh => flowSequenceToken handles fresh outer t
      | .pair =>
          -- a key that is missing takes the next token with it
          match t with
          | .value | .flowEntry | .flowSequenceEnd => emit .absent (next (pairValue :: outer))
          | t => startNode handles .flowEntry (pairValue :: outer) t
      | .pairValue =>
          match t with
          | .value => next (node .pairValue none none :: pairEnd :: outer)
          | t => emit .absent (endPair handles outer t)
      | .pairEnd => endPair handles outer t
      | .flowMapping fresh => flowMappingToken handles fresh outer t
      | .flowMappingValue =>
          match t with
          | .value => next (node .flowValue none none :: flowMapping false :: outer)
          | t => emit .absent (flowMappingToken handles false outer t)
      | .noValue => emit .absent (flowMappingToken handles false outer t)
      | .documentEnd =>
          match t with
          | .documentEnd => next (documentEnd :: outer)
          | .streamEnd => next outer
          | _ => refused

def events (handles : Handles) : List Pending → List Token → List Event × Bool
  | pending, [] => ([], pending.isEmpty)
  | pending, t :: rest =>
      match take handles pending t with
      | (here, none) => (here, false)
      | (here, some pending) =>
          let (later, whole) := events handles pending rest
          (here ++ later, whole)

end Pending

end TouchGesture.Yaml
