import TouchGesture.Proofs.Touch.Arena

/-! Fingers that come to a panel as guests. What was on the panel before stays as it is while they
are there, and is all that is left when they are gone. -/

namespace TouchGesture

namespace Panel

/-- The slots when fingers have come one after another, each to the first slot that was free. -/
def seat : List (Option Finger) → List Finger → List (Option Finger)
  | [], _ => []
  | some g :: slots, fingers => some g :: seat slots fingers
  | none :: slots, [] => none :: slots
  | none :: slots, f :: fingers => some f :: seat slots fingers

theorem seat_nil (slots : List (Option Finger)) : seat slots [] = slots := by
  induction slots with
  | nil => rfl
  | cons slot slots ih =>
      cases slot with
      | none => rfl
      | some g => rw [seat, ih]

theorem seat_cons (slots : List (Option Finger)) (f : Finger) (fingers : List Finger) :
    seat slots (f :: fingers) = seat (seat slots [f]) fingers := by
  induction slots with
  | nil => rfl
  | cons slot slots ih =>
      cases slot with
      | none => rw [seat, seat, seat, seat_nil]
      | some g => rw [seat, seat, seat, ih]

theorem set_first_free {slots : List (Option Finger)} {slot : Nat} (f : Finger)
    (free : slots.findIdx? Option.isNone = some slot) :
    slots.set slot (some f) = seat slots [f] := by
  induction slots generalizing slot with
  | nil => simp at free
  | cons first slots ih =>
      rw [List.findIdx?_cons] at free
      cases first with
      | none =>
          obtain rfl : 0 = slot := by simpa using free
          rw [List.set_cons_zero, seat, seat_nil]
      | some g =>
          obtain ⟨later, found, rfl⟩ : ∃ later, slots.findIdx? Option.isNone = some later ∧
              later + 1 = slot := by
            simpa using free
          rw [List.set_cons_succ, seat, ih found]

theorem count_seat {slots : List (Option Finger)} {fingers : List Finger}
    (room : fingers.length ≤ slots.count none) :
    (seat slots fingers).count none + fingers.length = slots.count none := by
  induction slots generalizing fingers with
  | nil => simpa [seat] using room
  | cons slot slots ih =>
      cases slot with
      | some g =>
          have rest := ih (by simpa using room)
          simpa [seat] using rest
      | none =>
          cases fingers with
          | nil => rfl
          | cons f fingers =>
              have fits : fingers.length ≤ slots.count none := by simpa using room
              have rest := ih fits
              simp only [seat, List.length_cons, List.count_cons_self]
              rw [List.count_cons_of_ne (by simp)]
              omega

theorem seat_replicate (fingers : List Finger) :
    seat (List.replicate fingers.length none) fingers = fingers.map some := by
  induction fingers with
  | nil => rfl
  | cons f fingers ih => rw [List.length_cons, List.replicate_succ, seat, ih, List.map_cons]

theorem first_free_eq_none {slots : List (Option Finger)} :
    slots.findIdx? Option.isNone = none ↔ slots.count none = 0 := by
  rw [List.findIdx?_eq_none_iff, List.count_eq_zero]
  constructor
  · intro taken free
    simpa using taken none free
  · intro taken slot member
    cases slot with
    | none => exact absurd member taken
    | some g => rfl

theorem place?_congr {p q : Panel} (same : p.resolution = q.resolution) (spot : Position) :
    p.place? spot = q.place? spot := by
  rw [place?, place?, same]

theorem isDown_attach {p : Panel} {c : Contact} {f : Finger} :
    (p.attach c).isDown f ↔ f = c.finger ∨ p.isDown f := by
  simp only [isDown_iff, attach, Finger.mem_insertBy, or_and_right, exists_or, exists_eq_left]
  rw [eq_comm]

theorem slots_without_nobody (slots : List (Option Finger)) :
    slots.map (Option.filter fun f => f ∉ ([] : List Finger)) = slots := by
  refine (List.map_congr_left fun holder _ => ?_).trans (List.map_id slots)
  cases holder with
  | none => rfl
  | some g => simp [Option.filter_some]

theorem contacts_without_nobody (contacts : List Contact) :
    contacts.filter (fun c => c.finger ∉ ([] : List Finger)) = contacts := by
  simp

/-- The panel is as it was, but for some guests: without them the slots and the contacts are those
of `home`. -/
structure Visited (max : Nat) (home : Panel) (arrivals : Nat) (guests : List Finger) (p : Panel) :
    Prop where
  sound : p.Sound max
  resolution : p.resolution = home.resolution
  slots : p.slots.map (Option.filter fun f => f ∉ guests) = home.slots
  contacts : p.contacts.filter (fun c => c.finger ∉ guests) = home.contacts
  present : ∀ f ∈ guests, p.isDown f
  lastTrackingId : p.lastTrackingId = home.lastTrackingId + arrivals
  log : home.log.toList <+: p.log.toList

variable {max arrivals : Nat} {home p : Panel} {guests : List Finger} {f : Finger}

theorem Sound.visited (sound : p.Sound max) : Visited max p 0 [] p where
  sound
  resolution := rfl
  slots := slots_without_nobody p.slots
  contacts := contacts_without_nobody p.contacts
  present := nofun
  lastTrackingId := rfl
  log := List.prefix_rfl

namespace Visited

theorem isDown_home_iff (visited : Visited max home arrivals guests p) :
    home.isDown f ↔ p.isDown f ∧ f ∉ guests := by
  rw [isDown_iff, isDown_iff, ← visited.contacts]
  constructor
  · rintro ⟨c, member, rfl⟩
    obtain ⟨old, foreign⟩ := List.mem_filter.mp member
    exact ⟨⟨c, old, rfl⟩, by simpa using foreign⟩
  · rintro ⟨⟨c, member, rfl⟩, foreign⟩
    exact ⟨c, List.mem_filter.mpr ⟨member, by simpa using foreign⟩, rfl⟩

private theorem log_push {log : Array TouchEvent} (before : home.log.toList <+: log.toList)
    (e : TouchEvent) : home.log.toList <+: (log.push e).toList := by
  rw [Array.toList_push]
  exact before.trans (List.prefix_append _ _)

theorem attach (visited : Visited max home arrivals guests p) {slot : Nat} (point : Position)
    (up : ¬ p.isDown f) (free : p.slots.findIdx? Option.isNone = some slot) :
    Visited max home (arrivals + 1) (guests ++ [f])
      (p.attach ⟨f, slot, p.lastTrackingId + 1, point⟩) := by
  have fresh : ∀ c ∈ p.contacts, c.finger ≠ f := fun c member same =>
    up (isDown_iff.mpr ⟨c, member, same⟩)
  constructor
  case sound => exact visited.sound.attach point up free
  case resolution => exact visited.resolution
  case slots =>
    obtain ⟨inside, empty, -⟩ := List.findIdx?_eq_some_iff_getElem.mp free
    have vacant : p.slots[slot] = none := Option.isNone_iff_eq_none.mp empty
    -- `f` is in no slot yet, for every slot in use has its contact
    have elsewhere : p.slots.map (Option.filter fun g => g ∉ guests ++ [f]) =
        p.slots.map (Option.filter fun g => g ∉ guests) := by
      refine List.map_congr_left fun holder member => ?_
      cases holder with
      | none => rfl
      | some g =>
          obtain ⟨i, used⟩ := List.mem_iff_getElem?.mp member
          obtain ⟨c, present, rfl, -⟩ := visited.sound.holder i g used
          simp [Option.filter_some, fresh c present]
    have still : p.slots.set slot none = p.slots := by
      rw [← vacant, List.set_getElem_self]
    calc
      (p.slots.set slot (some f)).map (Option.filter fun g => g ∉ guests ++ [f])
          = (p.slots.map (Option.filter fun g => g ∉ guests)).set slot none := by
            rw [List.map_set, elsewhere]
            simp [Option.filter_some]
      _ = (p.slots.set slot none).map (Option.filter fun g => g ∉ guests) := by
            rw [List.map_set, Option.filter_none]
      _ = home.slots := by rw [still, visited.slots]
  case contacts =>
    rw [Panel.attach, Finger.filter_insertBy _ (by simp), ← visited.contacts]
    refine List.filter_congr fun c member => ?_
    simp [fresh c member]
  case present =>
    intro g member
    rw [isDown_iff]
    rcases List.mem_append.mp member with earlier | last
    · obtain ⟨c, old, same⟩ := isDown_iff.mp (visited.present g earlier)
      exact ⟨c, Finger.mem_insertBy.mpr (.inr old), same⟩
    · obtain rfl := List.mem_singleton.mp last
      exact ⟨_, Finger.mem_insertBy.mpr (.inl rfl), rfl⟩
  case lastTrackingId =>
    have given := visited.lastTrackingId
    simp only [Panel.attach]
    omega
  case log => exact log_push visited.log _

theorem press (visited : Visited max home arrivals guests p) (up : ¬ p.isDown f)
    (free : p.slots.count none ≠ 0) (spot : Position) :
    ∃ c : Contact, c.finger = f ∧ p.place? spot = some c.point ∧
      device.touch (.down f spot) p = (.accepted, p.attach c) ∧
      (p.attach c).slots = seat p.slots [f] ∧
      Visited max home (arrivals + 1) (guests ++ [f]) (p.attach c) := by
  rcases press_cases visited.sound.bounded f spot with
    ⟨down, -⟩ | ⟨-, full, -⟩ | ⟨slot, point, -, first, placed, accepted⟩
  · exact absurd down up
  · exact absurd (first_free_eq_none.mp full) free
  · exact ⟨_, rfl, placed, accepted, set_first_free f first, visited.attach point up first⟩

theorem press_taken (visited : Visited max home arrivals guests p) (down : home.isDown f)
    (spot : Position) : device.touch (.down f spot) p = (.rejected (.alreadyDown f), p) := by
  have here := (visited.isDown_home_iff.mp down).1
  rcases press_cases visited.sound.bounded f spot with
    ⟨-, refused⟩ | ⟨up, -⟩ | ⟨-, -, up, -⟩
  · exact refused
  · exact absurd here up
  · exact absurd here up

theorem press_crowded (visited : Visited max home arrivals guests p) (up : ¬ home.isDown f)
    (foreign : f ∉ guests) (full : p.slots.count none = 0) (spot : Position) :
    device.touch (.down f spot) p = (.rejected (.noFreeSlot max), p) := by
  rcases press_cases visited.sound.bounded f spot with
    ⟨down, -⟩ | ⟨-, -, refused⟩ | ⟨slot, -, -, first, -⟩
  · exact absurd (visited.isDown_home_iff.mpr ⟨down, foreign⟩) up
  · exact visited.sound.slots_length ▸ refused
  · rw [first_free_eq_none.mpr full] at first
    cases first

theorem relocate (visited : Visited max home arrivals guests p) (member : f ∈ guests)
    (point : Position) : Visited max home arrivals guests (p.relocate f point) := by
  constructor
  case sound => exact visited.sound.relocate f point
  case resolution => exact visited.resolution
  case slots => exact visited.slots
  case contacts =>
    rw [Panel.relocate, List.filter_map, ← visited.contacts]
    simp only [Function.comp_def, finger_moved]
    refine (List.map_congr_left fun c kept => ?_).trans (List.map_id _)
    have foreign : c.finger ∉ guests := by simpa using (List.mem_filter.mp kept).2
    rw [if_neg, id]
    rintro rfl
    exact foreign member
  case present =>
    intro g present
    obtain ⟨c, old, same⟩ := isDown_iff.mp (visited.present g present)
    exact isDown_iff.mpr ⟨_, List.mem_map_of_mem old, (finger_moved f point c).trans same⟩
  case lastTrackingId => exact visited.lastTrackingId
  case log => exact log_push visited.log _

theorem detach (visited : Visited max home arrivals (f :: guests) p) (once : f ∉ guests)
    {c : Contact} (found : p.contact? f = some c) :
    Visited max home arrivals guests (p.detach c) := by
  obtain ⟨member, rfl⟩ := finger_of_contact? found
  have here := visited.sound.held c member
  constructor
  case sound => exact visited.sound.detach member
  case resolution => exact visited.resolution
  case slots =>
    rw [← visited.slots, Panel.detach, List.map_set]
    refine List.ext_getElem? fun i => ?_
    -- no slot but its own can hold the finger that leaves
    by_cases same : c.slot = i
    · subst same
      have inside := (List.getElem?_eq_some_iff.mp here).1
      rw [List.getElem?_set_self (by simpa using inside), List.getElem?_map, here]
      simp [Option.filter_some]
    · rw [List.getElem?_set_ne same, List.getElem?_map, List.getElem?_map]
      rcases used : p.slots[i]? with _ | _ | g
      · rfl
      · rfl
      · have other : g ≠ c.finger := by
          rintro rfl
          exact same (visited.sound.slot_unique here used)
        simp [Option.filter_some, other]
  case contacts =>
    rw [← visited.contacts, Panel.detach, List.filter_filter]
    refine List.filter_congr fun d _ => ?_
    simp [Bool.and_comm]
  case present =>
    intro g present
    obtain ⟨d, old, same⟩ := isDown_iff.mp (visited.present g (List.mem_cons_of_mem _ present))
    have differ : d.finger ≠ c.finger := by
      intro again
      exact once (by rwa [← again, same])
    exact isDown_iff.mpr ⟨d, List.mem_filter.mpr ⟨old, by simpa using differ⟩, same⟩
  case lastTrackingId => exact visited.lastTrackingId
  case log => exact log_push visited.log _

theorem slide (visited : Visited max home arrivals guests p) (member : f ∈ guests)
    (spot : Position) :
    ∃ q, device.touch (.move f spot) p = (.accepted, q) ∧
      Visited max home arrivals guests q := by
  rcases slide_cases visited.sound.bounded f spot with ⟨up, -⟩ | ⟨point, -, -, accepted⟩
  · exact absurd (visited.present f member) up
  · exact ⟨_, accepted, visited.relocate member point⟩

theorem lift (visited : Visited max home arrivals (f :: guests) p) (once : f ∉ guests) :
    ∃ q, device.touch (.up f) p = (.accepted, q) ∧ Visited max home arrivals guests q := by
  rcases lift_cases p f with ⟨missing, -⟩ | ⟨c, found, -, accepted⟩
  · have down := visited.present f List.mem_cons_self
    rw [isDown, missing] at down
    cases down
  · exact ⟨_, accepted, visited.detach once found⟩

end Visited

end Panel

end TouchGesture
