import TouchGesture.Json.Trace
import TouchGesture.Proofs.Json.Touch
import TouchGesture.Proofs.Touch.Recorder

/-! Traces in JSON. What a recorder writes is read as a trace of the same touches, and the
coordinates are the same where their digits are few. -/

namespace TouchGesture

open Json

namespace Touch

def coordinates (e : TouchEvent) : List Float := e.point?.toList.flatMap fun p => [p.x, p.y]

theorem Reread.unique {e told other : TouchEvent} (left : Reread e told) (right : Reread e other) :
    told = other := by
  cases left with
  | down f again =>
      cases right with
      | down _ again' => rw [again.unique again']
  | move f again =>
      cases right with
      | move _ again' => rw [again.unique again']
  | up f =>
      cases right with
      | up _ => rfl

theorem finite_coordinates {e : TouchEvent} (finite : ∀ p ∈ e.point?, p.isFinite) :
    ∀ x ∈ e.coordinates, x.isFinite := by
  intro x member
  obtain ⟨p, placed, coordinate⟩ := List.mem_flatMap.mp member
  exact Point.finite_coordinates (finite p (Option.mem_toList.mp placed)) x coordinate

theorem reread_self_iff {e : TouchEvent} : Reread e e ↔
    ∀ x ∈ e.coordinates, reread? x = some x := by
  cases e with
  | down f p =>
      rw [coordinates, point?, Option.toList_some, List.flatMap_singleton]
      rw [show ([p.x, p.y] : List Float) = p.coordinates from rfl, ← Point.reread_self_iff]
      exact ⟨fun | .down _ again => again, .down f⟩
  | move f p =>
      rw [coordinates, point?, Option.toList_some, List.flatMap_singleton]
      rw [show ([p.x, p.y] : List Float) = p.coordinates from rfl, ← Point.reread_self_iff]
      exact ⟨fun | .move _ again => again, .move f⟩
  | up f => exact ⟨nofun, fun _ => .up f⟩

section Lists

variable {events told : List TouchEvent}

theorem forall_reread_self_iff :
    List.Forall₂ Reread events events ↔
      ∀ e ∈ events, ∀ x ∈ e.coordinates, reread? x = some x := by
  rw [List.forall₂_same]
  exact forall₂_congr fun _ _ => reread_self_iff

theorem forall_reread_unique {other : List TouchEvent} (left : List.Forall₂ Reread events told)
    (right : List.Forall₂ Reread events other) : told = other :=
  List.right_unique_forall₂' (fun _ _ _ first second => first.unique second) left right

variable (finite : ∀ e ∈ events, ∀ p ∈ e.point?, p.isFinite)
include finite

theorem exists_forall_reread : ∃ told, List.Forall₂ Reread events told :=
  exists_forall₂ fun e member => exists_reread (finite e member)

/-- A list of touches that was written with an indent is read as one. -/
theorem listOfJson_pretty (again : List.Forall₂ Reread events told) :
    listOfJson (list toJson events).pretty = .ok told := by
  have each : ∀ e ∈ events, ∀ t, Reread e t → Tells (ofJson 1) (toJson e) t :=
    fun e member _ read =>
      ⟨writable_toJson (finite e member), ofJson_toJson (finite e member) read⟩
  exact (tells_list each again).pretty

end Lists

end Touch

namespace Recorder

inductive Reached : Recorder → Prop
  | new : Reached new
  | touch {r : Recorder} (e : TouchEvent) : (∀ p ∈ e.point?, p.isFinite) → Reached r →
      Reached (Recorder.touch e r).2
  | clear {r : Recorder} : Reached r → Reached r.clear
  | failingAt {r : Recorder} (n : Nat) : Reached r → Reached (r.failingAt n)

theorem finite_touch {r : Recorder} {e : TouchEvent} (finite : ∀ p ∈ e.point?, p.isFinite)
    (all : ∀ f ∈ r.events.toList, ∀ p ∈ f.point?, p.isFinite) :
    ∀ f ∈ (touch e r).2.events.toList, ∀ p ∈ f.point?, p.isFinite := by
  have outcome := r.touch_outcome e
  generalize touch e r = result at outcome ⊢
  cases outcome with
  | injected _ | misused _ _ => exact all
  | recorded _ _ =>
      intro f member
      simp only [record, Array.toList_push, List.mem_append, List.mem_singleton] at member
      rcases member with earlier | rfl
      · exact all f earlier
      · exact finite

theorem Reached.finite {r : Recorder} (reached : r.Reached) :
    ∀ e ∈ r.events.toList, ∀ p ∈ e.point?, p.isFinite := by
  induction reached with
  | new => exact nofun
  | touch e finite _ ih => exact finite_touch finite ih
  | clear _ _ => exact nofun
  | failingAt _ _ ih => exact ih

/-- Whatever touches with finite coordinates are made, the text of the trace is read as the touches
that were recorded, in their order, with their phases and their fingers. A coordinate is read as
what its shortest digits are scaled to, which rounds more than once. The trace comes back exactly
when every coordinate does, and all of those do whose digits fit 53 bits, with a power of ten that
is a double. -/
theorem trace_reread {r : Recorder} (reached : r.Reached) :
    ∃ told, Touch.listOfJson r.toJson = .ok told ∧
      List.Forall₂ Touch.Reread r.events.toList told ∧
      (told = r.events.toList ↔
        ∀ e ∈ r.events.toList, ∀ x ∈ e.coordinates, reread? x = some x) ∧
      ((∀ e ∈ r.events.toList, ∀ x ∈ e.coordinates, Brief x) →
        told = r.events.toList) := by
  have finite := reached.finite
  obtain ⟨told, again⟩ := Touch.exists_forall_reread finite
  have same : told = r.events.toList ↔
      ∀ e ∈ r.events.toList, ∀ x ∈ e.coordinates, reread? x = some x := by
    rw [← Touch.forall_reread_self_iff]
    constructor
    · rintro rfl
      exact again
    · exact Touch.forall_reread_unique again
  refine ⟨told, Touch.listOfJson_pretty finite again, again, same, fun brief => same.mpr ?_⟩
  intro e member x coordinate
  exact reread?_brief (Touch.finite_coordinates (finite e member) x coordinate)
    (brief e member x coordinate)

/-- A finger is put down and moved, and the lift between the two is refused. -/
theorem trace_reread_refused :
    ∃ r : Recorder, r.Reached ∧
      r.events.toList =
        [.down ⟨7⟩ ⟨0.5, -120.25⟩, .move ⟨7⟩ ⟨1e22, 0.1⟩, .up ⟨7⟩] ∧
      Touch.listOfJson r.toJson = .ok r.events.toList := by
  have reached :
      Reached (touch (.up ⟨7⟩) (touch (.move ⟨7⟩ ⟨1e22, 0.1⟩) (touch (.up ⟨7⟩)
      (touch (.down ⟨7⟩ ⟨0.5, -120.25⟩) (new.failingAt 2)).2).2).2).2 := by
    refine .touch _ nofun (.touch _ ?_ (.touch _ nofun (.touch _ ?_ (.failingAt 2 .new))))
    all_goals
      rintro _ ⟨⟩
      decide +kernel
  obtain ⟨told, read, -, -, same⟩ := trace_reread reached
  refine ⟨_, reached, by decide +kernel, ?_⟩
  rw [read, same (by decide +kernel)]

/-- One eleventh has too many digits: they are scaled to the next double. -/
theorem trace_changed :
    ∃ r : Recorder, r.Reached ∧
      r.events.toList = [.down ⟨0⟩ ⟨0.09090909090909091, 0⟩] ∧
      Touch.listOfJson r.toJson = .ok [.down ⟨0⟩ ⟨0.09090909090909093, 0⟩] ∧
      Touch.listOfJson r.toJson ≠ .ok r.events.toList := by
  have finite : ∀ p ∈ (Touch.down ⟨0⟩ (⟨0.09090909090909091, 0⟩ : Position)).point?,
      p.isFinite := by
    rintro _ ⟨⟩
    decide +kernel
  have reached : Reached (touch (.down ⟨0⟩ ⟨0.09090909090909091, 0⟩) new).2 :=
    .touch _ finite .new
  have events : (touch (.down ⟨0⟩ ⟨0.09090909090909091, 0⟩) new).2.events.toList =
      [.down ⟨0⟩ ⟨0.09090909090909091, 0⟩] := by decide +kernel
  have again : Touch.Reread (.down ⟨0⟩ ⟨0.09090909090909091, 0⟩)
      (.down ⟨0⟩ ⟨0.09090909090909093, 0⟩) :=
    .down _ ⟨by decide +kernel, by decide +kernel⟩
  have read : Touch.listOfJson (touch (.down ⟨0⟩ ⟨0.09090909090909091, 0⟩) new).2.toJson =
      .ok [.down ⟨0⟩ ⟨0.09090909090909093, 0⟩] := by
    rw [toJson, events]
    exact Touch.listOfJson_pretty (by simpa using finite) (.cons again .nil)
  refine ⟨_, reached, events, read, ?_⟩
  rw [read, events]
  intro same
  exact absurd (Except.ok.inj same) (by decide +kernel)

end Recorder

end TouchGesture
