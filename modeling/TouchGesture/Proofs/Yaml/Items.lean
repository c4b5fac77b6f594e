import TouchGesture.Proofs.Yaml.Mapping
import TouchGesture.Yaml.Document

/-! The document that a block mapping from keys to integers is. -/

namespace TouchGesture.Yaml

open Scan (isShort entryTokens lineTokens mappingTokens)

def Event.isNameless : Event → Bool
  | .scalar none .. | .opening none _ | .closing => true
  | .scalar (some _) .. | .opening (some _) _ | .alias _ => false

def Event.item (e : Event) : Item :=
  match e.node? with
  | some n => .node n false
  | none => .closing

theorem numbered_nameless {events : List Event} {anchors : Anchors}
    (nameless : ∀ e ∈ events, e.isNameless) :
    Anchors.numbered anchors events = events.map fun e => (e, none) := by
  induction events generalizing anchors with
  | nil => rfl
  | cons e events ih =>
      have here := nameless e List.mem_cons_self
      have others : Anchors.numbered anchors events = events.map fun e => (e, none) :=
        ih fun f member => nameless f (.tail e member)
      have unnumbered : anchors.number? e = some (none, anchors) := by
        cases e with
        | scalar anchor tag style text => cases anchor <;> first | rfl | cases here
        | «alias» name => cases here
        | opening anchor kind => cases anchor <;> first | rfl | cases here
        | closing => rfl
      simp only [Anchors.numbered, unnumbered, others, List.map_cons]

theorem ofEvents_nameless {events : List Event} {whole : Bool}
    (nameless : ∀ e ∈ events, e.isNameless) :
    Document.ofEvents events whole = ⟨events.map Event.item, whole⟩ := by
  have items : (events.map fun e => (e, (none : Option Nat))).map
      (item (events.map fun e => (e, none))) = events.map Event.item := by
    rw [List.map_map]
    apply List.map_congr_left
    intro e member
    simp only [Function.comp, item, Event.item, Option.bind_none]
    cases e.node? <;> rfl
  simp [Document.ofEvents, numbered_nameless nameless, items]

def entryEvents (e : List Char × Int) : List Event :=
  [.scalar none none (keyStyle e.1) (String.ofList e.1),
    .scalar none none .plain (String.ofList (integerText e.2))]

def lineEvents : List (List Char × Int) → List Event
  | [] => [.closing]
  | e :: entries => if isShort e.1 then entryEvents e ++ lineEvents entries else []

theorem nameless_lineEvents (entries : List (List Char × Int)) :
    ∀ e ∈ lineEvents entries, e.isNameless := by
  induction entries with
  | nil => simp [lineEvents, Event.isNameless]
  | cons e entries ih =>
      by_cases short : isShort e.1
      · simpa [lineEvents, short, entryEvents, Event.isNameless] using ih
      · simp [lineEvents, short]

theorem events_lineTokens (handles : Handles) (entries : List (List Char × Int)) :
    Pending.events handles [.mapping, .documentEnd] (lineTokens entries) =
      (lineEvents entries, entries.all fun e => isShort e.1) := by
  induction entries with
  | nil => rfl
  | cons e entries ih =>
      by_cases short : isShort e.1
      · simp [lineTokens, lineEvents, short, entryTokens, entryEvents, Pending.events,
          Pending.take, Pending.mappingToken, Pending.nodeToken?, Progress.next, Progress.emit,
          Role.isVacant, ih]
      · simp [lineTokens, lineEvents, short, Pending.events]

/-- Nothing, or a mapping up to a key that is too long; where that is the first key, it is a
text. -/
theorem ofTokens_mappingTokens (entries : List (List Char × Int)) :
    Document.ofTokens (mappingTokens entries) =
      match entries with
      | [] => { whole := true }
      | e :: rest =>
          if isShort e.1 then
            ⟨.node (.collection .mapping) false :: (lineEvents (e :: rest)).map Event.item,
              (e :: rest).all fun e => isShort e.1⟩
          else ⟨[.node (.scalar none (keyStyle e.1) (String.ofList e.1)) false], false⟩ := by
  cases entries with
  | nil => rfl
  | cons e entries =>
      by_cases short : isShort e.1
      · have tokens : mappingTokens (e :: entries) =
            .blockMappingStart :: lineTokens (e :: entries) := by
          simp [mappingTokens, lineTokens, short]
        have events : Pending.events Handles.standard [.node (.root false) none none, .documentEnd]
            (.blockMappingStart :: lineTokens (e :: entries)) =
              (.opening none .mapping :: lineEvents (e :: entries),
                (e :: entries).all fun e => isShort e.1) := by
          simp [Pending.events, Pending.take, Pending.nodeToken?, Progress.next, Progress.emit,
            Role.isVacant, Role.inBlock, events_lineTokens]
        have nameless : ∀ f ∈ Event.opening none .mapping :: lineEvents (e :: entries),
            f.isNameless := by
          simpa [Event.isNameless] using nameless_lineEvents (e :: entries)
        simp [tokens, Document.ofTokens, Document.ofRoot, events, ofEvents_nameless nameless, short]
        rfl
      · have tokens : mappingTokens (e :: entries) =
            [.scalar (keyStyle e.1) (String.ofList e.1)] := by
          simp [mappingTokens, short]
        simp [tokens, short]
        rfl

end TouchGesture.Yaml
