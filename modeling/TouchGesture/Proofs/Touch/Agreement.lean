import Mathlib.Data.List.Dedup
import Mathlib.Data.List.Perm.Subperm
import TouchGesture.Proofs.Touch.Arena
import TouchGesture.Proofs.Touch.Recorder
import TouchGesture.Proofs.Touch.Sequence

/-! A panel that clamps nothing and a recorder that injects nothing, given the same touches. A
caller cannot tell them apart before the panel runs out of slots. -/

namespace TouchGesture

theorem Recorder.mem_down_after {events : List TouchEvent} {r : Recorder} {f : Finger}
    (member : f ∈ (device.after events r).down) :
    f ∈ events.map Touch.finger ∨ f ∈ r.down := by
  induction events generalizing r with
  | nil => exact .inr member
  | cons e rest ih =>
      rw [List.map_cons, List.mem_cons]
      rcases ih member with later | here
      · exact .inl (.inr later)
      · rcases mem_down_touch here with rfl | before
        · exact .inl (.inl rfl)
        · exact .inr before

def Verdict.isNoFreeSlot : Verdict → Bool
  | .rejected (.noFreeSlot _) => true
  | _ => false

namespace Panel

/-- The panel and the recorder have the same fingers in contact and the same log, and neither does
anything to a touch but record it. -/
structure Alike (max : Nat) (p : Panel) (r : Recorder) : Prop where
  sound : p.Sound max
  unclamped : p.resolution = none
  calm : r.failAt = none
  log : p.log = r.events
  fingers : p.contacts.map Contact.finger = r.down

variable {max : Nat} {p : Panel} {r : Recorder}

theorem alike_fresh (max : Nat) : Alike max (ofSlots max) Recorder.new where
  sound := sound_ofSlots max
  unclamped := rfl
  calm := rfl
  log := rfl
  fingers := rfl

theorem Sound.length_contacts (sound : p.Sound max)
    (full : p.slots.findIdx? Option.isNone = none) : p.contacts.length = max := by
  have everyone : p.slots.countP Option.isSome = p.slots.length := by
    rw [List.countP_eq_length]
    intro slot member
    have taken := List.findIdx?_eq_none_iff.mp full slot member
    cases slot with
    | none => cases taken
    | some f => rfl
  rw [← sound.slots_length, ← everyone]
  exact sound.activeCount_eq

/-- The two give one answer to a touch and stay alike, or a finger comes to a full panel, and only
the recorder lets it down. -/
inductive Answered (max : Nat) (e : TouchEvent) (r : Recorder) :
    Verdict × Panel → Verdict × Recorder → Prop
  | alike {verdict : Verdict} {q : Panel} {t : Recorder} :
      ¬ verdict.isNoFreeSlot → Alike max q t →
      Answered max e r (verdict, q) (verdict, t)
  | crowded {q : Panel} : r.down.length = max → e.finger ∉ r.down →
      Answered max e r (.rejected (.noFreeSlot max), q) (.accepted, r.record e)

namespace Alike

theorem isDown_iff (alike : Alike max p r) {f : Finger} : p.isDown f ↔ f ∈ r.down := by
  rw [Panel.isDown_iff, ← alike.fingers, List.mem_map]

theorem bounded (alike : Alike max p r) : p.Bounded := alike.sound.bounded

theorem not_due (alike : Alike max p r) : ¬ r.Due := by
  simp [Recorder.Due, alike.calm]

theorem recorded (alike : Alike max p r) (e : TouchEvent) (suits : e.Suits r.down) :
    Recorder.touch e r = (.accepted, r.record e) :=
  Recorder.touch_of_suits alike.not_due suits

theorem accepted (alike : Alike max p r) (e : TouchEvent) (suits : e.Suits r.down) {q : Panel}
    (sound : q.Sound max) (resolution : q.resolution = p.resolution) (log : q.log = p.log.push e)
    (fingers : q.contacts.map Contact.finger = e.settle r.down) :
    Answered max e r (.accepted, q) (Recorder.touch e r) := by
  have logs : q.log = r.events.push e := log.trans (congrArg (Array.push · e) alike.log)
  rw [alike.recorded e suits]
  exact .alike nofun ⟨sound, resolution.trans alike.unclamped, alike.calm, logs, fingers⟩

theorem refused (alike : Alike max p r) (e : TouchEvent) (unsuited : ¬ e.Suits r.down) :
    Answered max e r (.rejected e.misuse, p) (Recorder.touch e r) := by
  rw [Recorder.touch_of_misuse alike.not_due unsuited]
  apply Answered.alike
  · cases e <;> exact nofun
  · exact ⟨alike.sound, alike.unclamped, alike.calm, alike.log, alike.fingers⟩

theorem press (alike : Alike max p r) (f : Finger) (spot : Position) :
    Answered max (.down f spot) r (p.press f spot) (Recorder.touch (.down f spot) r) := by
  rcases press_cases alike.bounded f spot with
    ⟨down, refused⟩ | ⟨up, full, refused⟩ | ⟨slot, point, up, free, placed, accepted⟩
  · have taken : f ∈ r.down := alike.isDown_iff.mp down
    rw [refused]
    exact alike.refused (.down f spot) fun fresh => fresh taken
  · have fresh : f ∉ r.down := fun member => up (alike.isDown_iff.mpr member)
    have crowd : r.down.length = max := by
      rw [← alike.fingers, List.length_map]
      exact alike.sound.length_contacts full
    rw [refused, alike.sound.slots_length, alike.recorded (.down f spot) fresh]
    exact .crowded crowd fresh
  · obtain rfl := eq_of_place?_unclamped alike.unclamped placed
    have fresh : f ∉ r.down := fun member => up (alike.isDown_iff.mpr member)
    rw [accepted]
    apply alike.accepted (.down f point) fresh
    case sound => exact alike.sound.attach point up free
    case resolution => rfl
    case log => rfl
    case fingers =>
      rw [Panel.attach, Finger.map_insertBy, alike.fingers]
      rfl

theorem slide (alike : Alike max p r) (f : Finger) (spot : Position) :
    Answered max (.move f spot) r (p.slide f spot) (Recorder.touch (.move f spot) r) := by
  rcases slide_cases alike.bounded f spot with
    ⟨up, refused⟩ | ⟨point, down, placed, accepted⟩
  · rw [refused]
    exact alike.refused (.move f spot) fun member => up (alike.isDown_iff.mpr member)
  · obtain rfl := eq_of_place?_unclamped alike.unclamped placed
    rw [accepted]
    apply alike.accepted (.move f point) (alike.isDown_iff.mp down)
    case sound => exact alike.sound.relocate f point
    case resolution => rfl
    case log => rfl
    case fingers =>
      rw [Panel.relocate, List.map_map]
      simp only [Function.comp_def, finger_moved]
      exact alike.fingers

theorem lift (alike : Alike max p r) (f : Finger) :
    Answered max (.up f) r (p.lift f) (Recorder.touch (.up f) r) := by
  rcases lift_cases p f with ⟨missing, refused⟩ | ⟨c, found, rfl, accepted⟩
  · have up : ¬ p.isDown f := by simp [isDown, missing]
    rw [refused]
    exact alike.refused (.up f) fun member => up (alike.isDown_iff.mpr member)
  · have member := (finger_of_contact? found).1
    rw [accepted]
    apply alike.accepted (.up c.finger)
      (alike.isDown_iff.mp (Panel.isDown_iff.mpr ⟨c, member, rfl⟩))
    case sound => exact alike.sound.detach member
    case resolution => rfl
    case log => rfl
    case fingers =>
      rw [Touch.settle, ← alike.fingers, List.filter_map]
      rfl

theorem touch (alike : Alike max p r) (e : TouchEvent) :
    Answered max e r (Panel.touch e p) (Recorder.touch e r) := by
  cases e with
  | down f spot => exact alike.press f spot
  | move f spot => exact alike.slide f spot
  | up f => exact alike.lift f

/-- As long as no finger finds the panel full, the two give the same answers and stay alike. -/
theorem run (alike : Alike max p r) {events : List TouchEvent}
    (room : ∀ verdict ∈ device.answers events p, ¬ verdict.isNoFreeSlot) :
    device.answers events p = Recorder.device.answers events r ∧
      Alike max (device.after events p) (Recorder.device.after events r) := by
  induction events generalizing p r with
  | nil => exact ⟨rfl, alike⟩
  | cons e rest ih =>
      have first := room _ List.mem_cons_self
      have later : ∀ verdict ∈ device.answers rest (Panel.touch e p).2,
          ¬ verdict.isNoFreeSlot := by
        intro verdict member
        exact room verdict (List.mem_cons_of_mem _ member)
      have answered := alike.touch e
      simp only [Device.answers, Device.after, List.foldl_cons, device, Recorder.device] at *
      generalize Panel.touch e p = panel at *
      generalize Recorder.touch e r = recorder at *
      cases answered with
      | crowded _ _ => exact absurd rfl first
      | alike _ next =>
          obtain ⟨same, last⟩ := ih next later
          exact ⟨congrArg _ same, last⟩

end Alike

def crowding (max : Nat) (events : List TouchEvent) : Nat :=
  (device.answers events (ofSlots max)).findIdx Verdict.isNoFreeSlot

/-- From the start on, the panel and the recorder answer each of these touches alike, and then they
have the same log and the same fingers in contact, in the same order. -/
structure Agree (max : Nat) (events : List TouchEvent) : Prop where
  answers : device.answers events (ofSlots max) = Recorder.device.answers events Recorder.new
  log : (device.after events (ofSlots max)).log = (Recorder.device.after events Recorder.new).events
  fingers : (device.after events (ofSlots max)).contacts.map Contact.finger =
    (Recorder.device.after events Recorder.new).down

section Sequences

variable {events : List TouchEvent} {k : Nat}

theorem room_before_crowding (early : k ≤ crowding max events) :
    ∀ verdict ∈ device.answers (events.take k) (ofSlots max), ¬ verdict.isNoFreeSlot := by
  intro verdict member
  rw [device.answers_take] at member
  obtain ⟨i, inside, rfl⟩ := List.mem_take_iff_getElem.mp member
  have before : i < crowding max events := by omega
  simp [List.not_of_lt_findIdx before]

theorem agree_take (early : k ≤ crowding max events) : Agree max (events.take k) := by
  obtain ⟨answers, last⟩ := (alike_fresh max).run (room_before_crowding early)
  exact ⟨answers, last.log, last.fingers⟩

/-- When a finger finds the panel full, as many other fingers are down as there are slots. -/
theorem crowded_at {e : TouchEvent} (here : events[crowding max events]? = some e) :
    (device.answers events (ofSlots max))[crowding max events]? =
      some (.rejected (.noFreeSlot max)) ∧
    (Recorder.device.answers events Recorder.new)[crowding max events]? = some .accepted ∧
    ∃ down : List Finger, (e.finger :: down).Nodup ∧ down.length = max ∧
      ∀ f ∈ down, f ∈ events.map Touch.finger := by
  obtain ⟨-, alike⟩ :=
    (alike_fresh max).run (room_before_crowding (Nat.le_refl (crowding max events)))
  have inside : crowding max events < (device.answers events (ofSlots max)).length := by
    rw [device.length_answers]
    exact (List.getElem?_eq_some_iff.mp here).1
  have full : ((device.answers events (ofSlots max))[crowding max events]).isNoFreeSlot :=
    List.findIdx_getElem
  have first := device.getElem?_answers events (crowding max events) (ofSlots max)
  have second := Recorder.device.getElem?_answers events (crowding max events) Recorder.new
  rw [here, Option.map_some] at first second
  rw [(List.getElem?_eq_some_iff.mp first).2] at full
  have answered := alike.touch e
  have distinct := alike.sound.ordered.nodup
  rw [alike.fingers] at distinct
  have touched :
      ∀ f ∈ (Recorder.device.after (events.take (crowding max events)) Recorder.new).down,
      f ∈ events.map Touch.finger := by
    intro f member
    rcases Recorder.mem_down_after member with listed | before
    · exact List.map_subset _ (List.take_subset _ _) listed
    · cases before
  rw [first, second]
  simp only [device, Recorder.device] at *
  generalize Panel.touch e _ = panel at *
  generalize Recorder.touch e _ = recorder at *
  cases answered with
  | alike room _ => exact absurd full room
  | crowded many fresh =>
      exact ⟨rfl, rfl, _, List.nodup_cons.mpr ⟨fresh, distinct⟩, many, touched⟩

/-- No finger finds the panel full if there are slots for all the fingers that ever come. -/
theorem crowding_eq_length (few : (events.map Touch.finger).dedup.length ≤ max) :
    crowding max events = events.length := by
  have bound : crowding max events ≤ events.length := by
    rw [← device.length_answers events (ofSlots max)]
    exact List.findIdx_le_length
  by_contra short
  have inside : crowding max events < events.length := by omega
  obtain ⟨-, -, down, distinct, many, touched⟩ := crowded_at (List.getElem?_eq_getElem inside)
  have known : events[crowding max events].finger :: down ⊆ (events.map Touch.finger).dedup := by
    rw [List.cons_subset]
    constructor
    · exact List.mem_dedup.mpr (List.mem_map_of_mem (List.getElem_mem inside))
    · intro f member
      exact List.mem_dedup.mpr (touched f member)
  have counted := (distinct.subperm known).length_le
  rw [List.length_cons] at counted
  omega

end Sequences

/-- Up to the first touch that finds the panel full, the panel and the recorder answer alike and
have the same log and the same fingers in contact. That touch they answer apart. It does not come if
the touches are of no more fingers than there are slots. -/
theorem agree_until_crowded (max : Nat) (events : List TouchEvent) :
    (∀ k ≤ crowding max events, Agree max (events.take k)) ∧
    (crowding max events < events.length →
      (device.answers events (ofSlots max))[crowding max events]? =
          some (.rejected (.noFreeSlot max)) ∧
        (Recorder.device.answers events Recorder.new)[crowding max events]? = some .accepted) ∧
    ((events.map Touch.finger).dedup.length ≤ max → ∀ k, Agree max (events.take k)) := by
  refine ⟨fun k early => agree_take early, fun inside => ?_, fun few k => ?_⟩
  · obtain ⟨panel, recorder, -⟩ := crowded_at (List.getElem?_eq_getElem inside)
    exact ⟨panel, recorder⟩
  · by_cases early : k ≤ events.length
    · exact agree_take (crowding_eq_length few ▸ early)
    · have whole := agree_take (Nat.le_of_eq (crowding_eq_length few).symm)
      rw [List.take_of_length_le (by omega)]
      rwa [List.take_length] at whole

/-- Fingers 7 and 3 fill two slots, 7 may not go down again, finger 5 finds the panel full. Had 7
lifted before, the panel would have let it down. -/
theorem agree_until_crowded_two_slots :
    crowding 2 [.down ⟨7⟩ ⟨1, 2⟩, .down ⟨3⟩ ⟨3, 4⟩, .down ⟨7⟩ ⟨0, 0⟩,
      .down ⟨5⟩ ⟨5, 6⟩] = 3 ∧
    Agree 2 [.down ⟨7⟩ ⟨1, 2⟩, .down ⟨3⟩ ⟨3, 4⟩, .down ⟨7⟩ ⟨0, 0⟩] ∧
    (∀ k, Agree 2 ([.down ⟨7⟩ ⟨1, 2⟩, .up ⟨7⟩, .move ⟨7⟩ ⟨3, 4⟩,
      .down ⟨5⟩ ⟨5, 6⟩].take k)) := by
  have full : crowding 2 [.down ⟨7⟩ ⟨1, 2⟩, .down ⟨3⟩ ⟨3, 4⟩,
      .down ⟨7⟩ ⟨0, 0⟩, .down ⟨5⟩ ⟨5, 6⟩] = 3 := by
    decide +kernel
  refine ⟨full, ?_, ?_⟩
  · exact (agree_until_crowded 2 _).1 3 (Nat.le_of_eq full.symm)
  · exact (agree_until_crowded 2 _).2.2 (by decide)

end Panel

end TouchGesture
