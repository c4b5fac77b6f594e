import TouchGesture.Proofs.Touch.Order
import TouchGesture.Touch.Panel

/-! What a touch can do to a panel, case by case. -/

namespace TouchGesture

/-- There is a place in `[0, width] × [0, height]` for every point. -/
def Resolution.Bounded (r : Resolution) : Prop := 0 ≤ r.width ∧ 0 ≤ r.height

theorem Resolution.clamp?_isSome {r : Resolution} (bounded : r.Bounded) (spot : Position) :
    (r.clamp? spot).isSome := by
  simp [clamp?, clampTo?, bounded.1, bounded.2]

namespace Panel

def Bounded (p : Panel) : Prop := ∀ r, p.resolution = some r → r.Bounded

theorem place?_isSome {p : Panel} (bounded : p.Bounded) (spot : Position) :
    (p.place? spot).isSome := by
  rw [place?]
  cases given : p.resolution with
  | none => rfl
  | some r => exact Resolution.clamp?_isSome (bounded r given) spot

def attach (p : Panel) (c : Contact) : Panel :=
  { p with
    slots := p.slots.set c.slot (some c.finger)
    contacts := Finger.insertBy Contact.finger c p.contacts
    lastTrackingId := c.trackingId
    log := p.log.push (.down c.finger c.point) }

def relocate (p : Panel) (f : Finger) (point : Position) : Panel :=
  { p with
    contacts := p.contacts.map fun c => if c.finger = f then { c with point := point } else c
    log := p.log.push (.move f point) }

def detach (p : Panel) (c : Contact) : Panel :=
  { p with
    slots := p.slots.set c.slot none
    contacts := p.contacts.filter fun d => d.finger ≠ c.finger
    log := p.log.push (.up c.finger) }

theorem isDown_iff {p : Panel} {f : Finger} : p.isDown f ↔
    ∃ c ∈ p.contacts, c.finger = f := by
  simp [isDown, contact?]

theorem finger_of_contact? {p : Panel} {f : Finger} {c : Contact} (found : p.contact? f = some c) :
    c ∈ p.contacts ∧ c.finger = f :=
  ⟨List.mem_of_find?_eq_some found, by simpa using List.find?_some found⟩

theorem press_cases {p : Panel} (bounded : p.Bounded) (f : Finger) (spot : Position) :
    (p.isDown f ∧ p.press f spot = (.rejected (.alreadyDown f), p)) ∨
    (¬ p.isDown f ∧ p.slots.findIdx? Option.isNone = none ∧
      p.press f spot = (.rejected (.noFreeSlot p.slots.length), p)) ∨
    ∃ slot point, ¬ p.isDown f ∧ p.slots.findIdx? Option.isNone = some slot ∧
      p.place? spot = some point ∧
      p.press f spot = (.accepted, p.attach ⟨f, slot, p.lastTrackingId + 1, point⟩) := by
  obtain ⟨point, placed⟩ := Option.isSome_iff_exists.mp (place?_isSome bounded spot)
  rw [press]
  by_cases down : p.isDown f
  · exact .inl ⟨down, if_pos down⟩
  · rw [if_neg down]
    cases free : p.slots.findIdx? Option.isNone with
    | none => exact .inr (.inl ⟨down, rfl, rfl⟩)
    | some slot =>
        refine .inr (.inr ⟨slot, point, down, rfl, placed, ?_⟩)
        rw [show p.place? spot = some point from placed]
        rfl

theorem slide_cases {p : Panel} (bounded : p.Bounded) (f : Finger) (spot : Position) :
    (¬ p.isDown f ∧ p.slide f spot = (.rejected (.notDown f), p)) ∨
    ∃ point, p.isDown f ∧ p.place? spot = some point ∧
      p.slide f spot = (.accepted, p.relocate f point) := by
  obtain ⟨point, placed⟩ := Option.isSome_iff_exists.mp (place?_isSome bounded spot)
  rw [slide, placed]
  by_cases down : p.isDown f
  · exact .inr ⟨point, down, rfl, if_pos down⟩
  · exact .inl ⟨down, if_neg down⟩

theorem lift_cases (p : Panel) (f : Finger) :
    (p.contact? f = none ∧ p.lift f = (.rejected (.notDown f), p)) ∨
    ∃ c, p.contact? f = some c ∧ c.finger = f ∧ p.lift f = (.accepted, p.detach c) := by
  rw [lift]
  cases found : p.contact? f with
  | none => exact .inl ⟨rfl, rfl⟩
  | some c =>
      obtain ⟨-, rfl⟩ := finger_of_contact? found
      exact .inr ⟨c, rfl, rfl, rfl⟩

theorem eq_of_place?_unclamped {p : Panel} {spot point : Position} (unclamped : p.resolution = none)
    (placed : p.place? spot = some point) : point = spot := by
  rw [place?, unclamped] at placed
  exact (Option.some.inj placed).symm

theorem touch_unclamped {p q : Panel} {e : TouchEvent} (unclamped : p.resolution = none)
    (accepted : touch e p = (.accepted, q)) : q.resolution = none ∧ q.log = p.log.push e := by
  have bounded : p.Bounded := fun r given => by cases unclamped.symm.trans given
  cases e with
  | down f spot =>
      rcases press_cases bounded f spot with
        ⟨-, refused⟩ | ⟨-, -, refused⟩ | ⟨slot, point, -, -, placed, done⟩
      · cases refused.symm.trans accepted
      · cases refused.symm.trans accepted
      · obtain rfl := eq_of_place?_unclamped unclamped placed
        cases done.symm.trans accepted
        exact ⟨unclamped, rfl⟩
  | move f spot =>
      rcases slide_cases bounded f spot with ⟨-, refused⟩ | ⟨point, -, placed, done⟩
      · cases refused.symm.trans accepted
      · obtain rfl := eq_of_place?_unclamped unclamped placed
        cases done.symm.trans accepted
        exact ⟨unclamped, rfl⟩
  | up f =>
      rcases lift_cases p f with ⟨-, refused⟩ | ⟨c, -, rfl, done⟩
      · cases refused.symm.trans accepted
      · cases done.symm.trans accepted
        exact ⟨unclamped, rfl⟩

end Panel

end TouchGesture
