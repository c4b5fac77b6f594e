import TouchGesture.Json.Touch
import TouchGesture.Proofs.Json.Record

/-! Touches in JSON. A touch is read as it was written, but for its coordinates, each of which is
what its digits are scaled to. -/

namespace TouchGesture

open Json

namespace Point

variable {p q : Position}

def coordinates (p : Position) : List Float := [p.x, p.y]

theorem finite_coordinates (finite : p.isFinite) : ∀ x ∈ p.coordinates, x.isFinite := by
  obtain ⟨left, right⟩ := isFinite_iff.mp finite
  simpa [coordinates] using ⟨left, right⟩

structure Reread (p q : Position) : Prop where
  x : reread? p.x = some q.x
  y : reread? p.y = some q.y

theorem exists_reread (finite : p.isFinite) : ∃ q, Reread p q := by
  obtain ⟨left, right⟩ := isFinite_iff.mp finite
  obtain ⟨x, again⟩ := exists_reread? left
  obtain ⟨y, again'⟩ := exists_reread? right
  exact ⟨⟨x, y⟩, again, again'⟩

theorem Reread.unique {r : Position} (left : Reread p q) (right : Reread p r) : q = r := by
  have x := Option.some.inj (left.x.symm.trans right.x)
  have y := Option.some.inj (left.y.symm.trans right.y)
  cases q
  cases r
  simp_all

theorem reread_self_iff : Reread p p ↔ ∀ x ∈ p.coordinates, reread? x = some x := by
  simp only [coordinates, List.forall_mem_cons, List.not_mem_nil, false_imp_iff, implies_true,
    and_true]
  exact ⟨fun again => ⟨again.x, again.y⟩, fun same => ⟨same.1, same.2⟩⟩

theorem verbatim_names : ∀ name ∈ ["x", "y"], Verbatim name := by simp [Verbatim, isVerbatim]

theorem writable_toJson (finite : p.isFinite) : Writable p.toJson := by
  obtain ⟨x, y⟩ := isFinite_iff.mp finite
  apply writable_record [("x", _), ("y", _)] verbatim_names
  simpa using ⟨writable_ofFloat x, writable_ofFloat y⟩

theorem holdable_toJson (finite : p.isFinite) {depth : Nat} (shallow : depth + 1 < 128) :
    holdable depth p.toJson := by
  obtain ⟨x, y⟩ := isFinite_iff.mp finite
  apply holdable_record [("x", _), ("y", _)] verbatim_names _ shallow
  simpa using ⟨holdable_ofFloat x _, holdable_ofFloat y _⟩

theorem ofJson_toJson (finite : p.isFinite) (again : Reread p q) (source : Source) :
    ofJson source p.toJson = .ok q := by
  obtain ⟨x, y⟩ := isFinite_iff.mp finite
  simp only [toJson, record, ofJson, foldFields_record [("x", _), ("y", _)] verbatim_names,
    List.foldlM_cons, List.foldlM_nil, double_ofFloat x again.x, double_ofFloat y again.y]
  rfl

theorem Reread.isFinite (again : Reread p q) (finite : p.isFinite) : q.isFinite := by
  obtain ⟨x, y⟩ := isFinite_iff.mp finite
  exact isFinite_iff.mpr ⟨isFinite_reread? x again.x, isFinite_reread? y again.y⟩

theorem Reread.tells (again : Reread p q) (finite : p.isFinite) (source : Source) :
    Tells (ofJson source) p.toJson q :=
  ⟨writable_toJson finite, ofJson_toJson finite again source⟩

section Lists

variable {points told : List Position}

theorem forall_reread_self_iff :
    List.Forall₂ Reread points points ↔
      ∀ x ∈ points.flatMap coordinates, reread? x = some x := by
  rw [List.forall₂_same, List.forall_mem_flatMap]
  exact forall₂_congr fun _ _ => reread_self_iff

theorem forall_reread_unique {other : List Position} (left : List.Forall₂ Reread points told)
    (right : List.Forall₂ Reread points other) : told = other :=
  List.right_unique_forall₂' (fun _ _ _ first second => first.unique second) left right

theorem finite_forall_reread (finite : ∀ p ∈ points, p.isFinite)
    (again : List.Forall₂ Reread points told) :
    ∀ q ∈ told, q.isFinite := by
  induction again with
  | nil => exact nofun
  | cons first _ ih =>
      rw [List.forall_mem_cons] at finite ⊢
      exact ⟨first.isFinite finite.1, ih finite.2⟩

theorem forall_reread_eq_iff (again : List.Forall₂ Reread points told) :
    told = points ↔ ∀ x ∈ points.flatMap coordinates, reread? x = some x := by
  rw [← forall_reread_self_iff]
  constructor
  · intro same
    exact same ▸ again
  · exact forall_reread_unique again

theorem reread_brief (finite : ∀ p ∈ points, p.isFinite)
    (brief : ∀ x ∈ points.flatMap coordinates, Brief x) :
    ∀ x ∈ points.flatMap coordinates, reread? x = some x := by
  intro x member
  obtain ⟨p, listed, coordinate⟩ := List.mem_flatMap.mp member
  exact reread?_brief (finite_coordinates (finite p listed) x coordinate) (brief x member)

theorem tells_points (finite : ∀ p ∈ points, p.isFinite)
    (again : List.Forall₂ Reread points told)
    (source : Source) : Tells (listOf (ofJson source)) (list toJson points) told :=
  tells_list (fun p member _ read => read.tells (finite p member) source) again

end Lists

end Point

namespace Finger

variable (f : Finger)

theorem writable_toJson : Writable f.toJson := writable_ofNat _

theorem holdable_toJson (depth : Nat) : holdable depth f.toJson :=
  holdable_ofNat (Nat.lt_trans f.index.toNat_lt_size (by decide)) depth

theorem ofJson_toJson : ofJson f.toJson = .ok f := by
  rw [ofJson, toJson, (tells_word32 f.index).means]
  rfl

end Finger

namespace Phase

theorem verbatim_name (phase : Phase) : Verbatim phase.name := by
  cases phase <;> simp [name, Verbatim, isVerbatim]

theorem ofIdentifier_name (phase : Phase) : ofIdentifier (ofPlain phase.name) = .ok phase := by
  have name : ofIdentifier (ofPlain phase.name) = ofName phase.name := by
    simp only [ofIdentifier, ofPlain, characters_verbatim phase.verbatim_name]
    rfl
  rw [name]
  cases phase <;> rfl

end Phase

namespace Touch

inductive Reread : TouchEvent → TouchEvent → Prop
  | down (f : Finger) {p q : Position} : p.Reread q → Reread (.down f p) (.down f q)
  | move (f : Finger) {p q : Position} : p.Reread q → Reread (.move f p) (.move f q)
  | up (f : Finger) : Reread (.up f) (.up f)

def fields : TouchEvent → List (String × Json)
  | .down f p | .move f p => [("finger", f.toJson), ("point", p.toJson)]
  | .up f => [("finger", f.toJson)]

theorem toJson_eq (e : TouchEvent) :
    toJson e = record (("phase", ofPlain e.phase.name) :: e.fields) := by
  cases e <;> rfl

theorem verbatim_fields (e : TouchEvent) :
    ∀ name ∈ e.fields.map Prod.fst, Verbatim name ∧ name ≠ "phase" := by
  have names : ∀ name ∈ ["finger", "point"], Verbatim name ∧ name ≠ "phase" := by
    simp [Verbatim, isVerbatim]
  cases e with
  | down f p | move f p => exact names
  | up f => exact fun name member => names name (List.mem_of_mem_dropLast member)

section Split

variable {fields : List (String × Json)}

theorem verbatim_cons {item : Json}
    (names : ∀ name ∈ fields.map Prod.fst, Verbatim name ∧ name ≠ "phase") :
    ∀ name ∈ (("phase", item) :: fields).map Prod.fst, Verbatim name := by
  rw [List.map_cons, List.forall_mem_cons]
  exact ⟨by simp [Verbatim, isVerbatim], fun name member => (names name member).1⟩

theorem foldlM_keeping {α σ : Type} {fields : List α} {state : List α → σ}
    {take : σ → α → Decoded σ}
    (each : ∀ f ∈ fields, ∀ kept, take (state kept) f = .ok (state (kept ++ [f])))
    (kept : List α) :
    fields.foldlM take (state kept) = .ok (state (kept ++ fields)) := by
  induction fields generalizing kept with
  | nil =>
      rw [List.append_nil]
      rfl
  | cons f fields ih =>
      rw [List.forall_mem_cons] at each
      have others := ih each.2 (kept ++ [f])
      rw [List.append_assoc, List.singleton_append] at others
      rw [List.foldlM_cons, each.1 kept]
      exact others

/-- The phase is taken out, and the other fields are held back in their order. -/
theorem splitPhase_record
    (names : ∀ name ∈ fields.map Prod.fst, Verbatim name ∧ name ≠ "phase") (phase : Phase)
    {depth : Nat} (items : ∀ f ∈ fields, holdable depth f.2) :
    splitPhase depth
      ((("phase", ofPlain phase.name) :: fields).map fun f => (ofPlain f.1, f.2)) true =
      .ok (some phase, fields) := by
  rw [splitPhase, foldFields_record _ (verbatim_cons names), List.foldlM_cons]
  simp only [if_true, phase.ofIdentifier_name]
  refine foldlM_keeping (σ := Option Phase × List (String × Json)) ?_ []
  intro f member kept
  have other : f.1 ≠ "phase" := (names f.1 (List.mem_map_of_mem member)).2
  exact (if_neg other).trans (if_pos (items f member))

end Split

section Event

variable {e told : TouchEvent} (finite : ∀ p ∈ e.point?, p.isFinite)
include finite

theorem exists_reread : ∃ told, Reread e told := by
  cases e with
  | down f p =>
      obtain ⟨q, again⟩ := Point.exists_reread (finite p rfl)
      exact ⟨_, .down f again⟩
  | move f p =>
      obtain ⟨q, again⟩ := Point.exists_reread (finite p rfl)
      exact ⟨_, .move f again⟩
  | up f => exact ⟨_, .up f⟩

theorem writable_toJson : Writable (toJson e) := by
  rw [toJson_eq]
  apply writable_record _ (verbatim_cons (verbatim_fields e))
  rw [List.forall_mem_cons]
  refine ⟨writable_plain e.phase.verbatim_name, ?_⟩
  cases e with
  | down f p | move f p =>
      simpa [fields] using ⟨f.writable_toJson, Point.writable_toJson (finite p rfl)⟩
  | up f => simpa [fields] using f.writable_toJson

theorem holdable_fields {depth : Nat} (shallow : depth + 1 < 128) :
    ∀ f ∈ e.fields, holdable depth f.2 := by
  cases e with
  | down f p | move f p =>
      simpa [fields] using ⟨f.holdable_toJson depth,
        Point.holdable_toJson (finite p rfl) shallow⟩
  | up f => simpa [fields] using f.holdable_toJson depth

theorem ofFields_fields (again : Reread e told) : ofFields e.phase e.fields = .ok told := by
  cases again with
  | down f again | move f again =>
      simp only [ofFields, fields, phase, List.foldlM_cons, List.foldlM_nil, f.ofJson_toJson,
        Point.ofJson_toJson (finite _ rfl) again]
      rfl
  | up f =>
      simp only [ofFields, fields, phase, List.foldlM_cons, List.foldlM_nil, f.ofJson_toJson]
      rfl

/-- A touch in a list is read as the touch that was written, at the point that is read. -/
theorem ofJson_toJson (again : Reread e told) : ofJson 1 (toJson e) = .ok told := by
  have held : ∀ f ∈ e.fields, holdable 2 f.2 := holdable_fields finite (by decide)
  have split := splitPhase_record (verbatim_fields e) e.phase held
  rw [toJson_eq, record, ofJson, split]
  exact ofFields_fields finite again

end Event

end Touch

end TouchGesture
