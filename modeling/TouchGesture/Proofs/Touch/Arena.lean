import TouchGesture.Proofs.Touch.Panel

/-! The slots and the contacts of a panel tell the same story, whatever was done to it. -/

namespace TouchGesture.Panel

/-- The panels that come about from a fresh one of `max` slots by touches of any kind, accepted or
not, by handing out the log and by setting resolutions that have a place for every point. -/
inductive Reachable (max : Nat) : Panel → Prop
  | fresh : Reachable max (ofSlots max)
  | touch {p : Panel} (e : TouchEvent) : Reachable max p → Reachable max (Panel.touch e p).2
  | drain {p : Panel} : Reachable max p → Reachable max p.drain.2
  | resolve {p : Panel} (r : Resolution) : r.Bounded → Reachable max p →
      Reachable max (p.withResolution r)

/-- Every contact holds its slot, every slot in use is held by a contact, contacts are in the order
of their fingers, and their tracking ids are different and not past the latest. -/
structure Sound (max : Nat) (p : Panel) : Prop where
  slots_length : p.slots.length = max
  bounded : p.Bounded
  held : ∀ c ∈ p.contacts, p.slots[c.slot]? = some (some c.finger)
  holder : ∀ slot f, p.slots[slot]? = some (some f) → ∃ c ∈ p.contacts, c.finger = f ∧
    c.slot = slot
  ordered : Finger.Ordered Contact.finger p.contacts
  ids_differ : p.contacts.Pairwise fun a b => a.trackingId ≠ b.trackingId
  ids_given : ∀ c ∈ p.contacts, 1 ≤ c.trackingId ∧ c.trackingId ≤ p.lastTrackingId

variable {max : Nat} {p : Panel}

theorem sound_ofSlots (max : Nat) : (ofSlots max).Sound max where
  slots_length := List.length_replicate
  bounded := nofun
  held := nofun
  holder slot f used := by
    obtain ⟨inside, value⟩ := List.getElem?_eq_some_iff.mp used
    simp [ofSlots] at value
  ordered := .nil
  ids_differ := .nil
  ids_given := nofun

section Moved

variable (f : Finger) (point : Position) (c : Contact)

theorem finger_moved :
    (if c.finger = f then { c with point := point } else c).finger = c.finger := by
  split <;> rfl

theorem slot_moved : (if c.finger = f then { c with point := point } else c).slot = c.slot := by
  split <;> rfl

theorem trackingId_moved :
    (if c.finger = f then { c with point := point } else c).trackingId = c.trackingId := by
  split <;> rfl

end Moved

theorem ordered_relocate (ordered : Finger.Ordered Contact.finger p.contacts) (f : Finger)
    (point : Position) : Finger.Ordered Contact.finger (p.relocate f point).contacts := by
  simp only [Panel.relocate, Finger.Ordered, List.pairwise_map, finger_moved]
  exact ordered

theorem mem_detach {c d : Contact} :
    d ∈ (p.detach c).contacts ↔ d ∈ p.contacts ∧ d.finger ≠ c.finger := by
  simp [Panel.detach]

def Held (p : Panel) : Prop := ∀ c ∈ p.contacts, p.slots[c.slot]? = some (some c.finger)

namespace Held

variable {a c : Contact} {slot : Nat}

theorem apart (held : p.Held) (free : p.slots[slot]? = some none) (member : c ∈ p.contacts) :
    slot ≠ c.slot := by
  intro same
  have full := held c member
  rw [← same, free] at full
  simp at full

theorem attach (held : p.Held) (free : p.slots[a.slot]? = some none) : (p.attach a).Held := by
  intro c member
  have inside := (List.getElem?_eq_some_iff.mp free).1
  rcases Finger.mem_insertBy.mp member with rfl | old
  · exact List.getElem?_set_self inside
  · simpa only [Panel.attach, List.getElem?_set_ne (held.apart free old)] using held c old

theorem relocate (held : p.Held) (f : Finger) (point : Position) : (p.relocate f point).Held := by
  simp only [Held, Panel.relocate, List.forall_mem_map, finger_moved, slot_moved]
  exact held

theorem detach (held : p.Held) (member : a ∈ p.contacts) : (p.detach a).Held := by
  intro c other
  obtain ⟨old, differ⟩ := mem_detach.mp other
  have full := held c old
  have apart : a.slot ≠ c.slot := by
    intro same
    rw [← same, held a member] at full
    exact differ (by simpa using full.symm)
  simpa only [Panel.detach, List.getElem?_set_ne apart] using full

end Held

theorem getElem?_first_free {slot : Nat} (free : p.slots.findIdx? Option.isNone = some slot) :
    p.slots[slot]? = some none := by
  obtain ⟨inside, empty, -⟩ := List.findIdx?_eq_some_iff_getElem.mp free
  rw [List.getElem?_eq_getElem inside, Option.isNone_iff_eq_none.mp empty]

namespace Sound

theorem attach (sound : p.Sound max) {f : Finger} {slot : Nat} (point : Position)
    (up : ¬ p.isDown f) (free : p.slots.findIdx? Option.isNone = some slot) :
    (p.attach ⟨f, slot, p.lastTrackingId + 1, point⟩).Sound max := by
  have fresh : ∀ c ∈ p.contacts, c.finger ≠ f := fun c member same =>
    up (isDown_iff.mpr ⟨c, member, same⟩)
  have vacant := getElem?_first_free free
  have inside := (List.getElem?_eq_some_iff.mp vacant).1
  constructor
  case slots_length => simpa [Panel.attach] using sound.slots_length
  case bounded => exact sound.bounded
  case held => exact Held.attach sound.held vacant
  case holder =>
    intro i g used
    by_cases here : slot = i
    · subst here
      simp only [Panel.attach, List.getElem?_set_self inside, Option.some.injEq] at used
      exact ⟨_, Finger.mem_insertBy.mpr (.inl rfl), used, rfl⟩
    · simp only [Panel.attach, List.getElem?_set_ne here] at used
      obtain ⟨c, member, same⟩ := sound.holder i g used
      exact ⟨c, Finger.mem_insertBy.mpr (.inr member), same⟩
  case ordered => exact sound.ordered.insertBy fresh
  case ids_differ =>
    refine (Finger.insertBy_perm _ _ _).symm.pairwise ?_ Ne.symm
    refine List.pairwise_cons.mpr ⟨fun c member => ?_, sound.ids_differ⟩
    have given := (sound.ids_given c member).2
    simp only
    omega
  case ids_given =>
    intro c member
    rcases Finger.mem_insertBy.mp member with rfl | old
    · exact ⟨Nat.le_add_left 1 _, Nat.le_refl _⟩
    · have given := sound.ids_given c old
      exact ⟨given.1, Nat.le_succ_of_le given.2⟩

theorem relocate (sound : p.Sound max) (f : Finger) (point : Position) :
    (p.relocate f point).Sound max := by
  constructor
  case slots_length => exact sound.slots_length
  case bounded => exact sound.bounded
  case held => exact Held.relocate sound.held f point
  case holder =>
    intro i g used
    obtain ⟨c, member, same, place⟩ := sound.holder i g used
    exact ⟨_, List.mem_map_of_mem member, (finger_moved f point c).trans same,
      (slot_moved f point c).trans place⟩
  case ordered => exact ordered_relocate sound.ordered f point
  case ids_differ =>
    simp only [Panel.relocate, List.pairwise_map, trackingId_moved]
    exact sound.ids_differ
  case ids_given =>
    simp only [Panel.relocate, List.forall_mem_map, trackingId_moved]
    exact sound.ids_given

theorem detach (sound : p.Sound max) {c : Contact} (member : c ∈ p.contacts) :
    (p.detach c).Sound max := by
  have here := sound.held c member
  constructor
  case slots_length => simpa [Panel.detach] using sound.slots_length
  case bounded => exact sound.bounded
  case held => exact Held.detach sound.held member
  case holder =>
    intro i g used
    have apart : c.slot ≠ i := by
      rintro rfl
      simp [Panel.detach, (List.getElem?_eq_some_iff.mp here).1] at used
    simp only [Panel.detach, List.getElem?_set_ne apart] at used
    obtain ⟨d, old, same, place⟩ := sound.holder i g used
    refine ⟨d, mem_detach.mpr ⟨old, ?_⟩, same, place⟩
    intro again
    exact apart (by rw [← place, sound.ordered.eq_of_finger old member again])
  case ordered => exact sound.ordered.filter _
  case ids_differ => exact sound.ids_differ.filter _
  case ids_given => exact fun d other => sound.ids_given d (mem_detach.mp other).1

theorem touch (sound : p.Sound max) (e : TouchEvent) : (Panel.touch e p).2.Sound max := by
  cases e with
  | down f spot =>
      rw [Panel.touch]
      rcases press_cases sound.bounded f spot with
        ⟨-, refused⟩ | ⟨-, -, refused⟩ | ⟨slot, point, up, free, -, accepted⟩
      · rwa [refused]
      · rwa [refused]
      · rw [accepted]
        exact sound.attach point up free
  | move f spot =>
      rw [Panel.touch]
      rcases slide_cases sound.bounded f spot with ⟨-, refused⟩ | ⟨point, -, -, accepted⟩
      · rwa [refused]
      · rw [accepted]
        exact sound.relocate f point
  | up f =>
      rw [Panel.touch]
      rcases lift_cases p f with ⟨-, refused⟩ | ⟨c, found, -, accepted⟩
      · rwa [refused]
      · rw [accepted]
        exact sound.detach (finger_of_contact? found).1

theorem drain (sound : p.Sound max) : p.drain.2.Sound max :=
  ⟨sound.slots_length, sound.bounded, sound.held, sound.holder, sound.ordered, sound.ids_differ,
    sound.ids_given⟩

theorem withResolution (sound : p.Sound max) {r : Resolution} (bounded : r.Bounded) :
    (p.withResolution r).Sound max := by
  refine ⟨sound.slots_length, ?_, sound.held, sound.holder, sound.ordered, sound.ids_differ,
    sound.ids_given⟩
  intro given same
  obtain rfl := Option.some.inj same
  exact bounded

theorem slot_unique (sound : p.Sound max) {i j : Nat} {f : Finger}
    (first : p.slots[i]? = some (some f)) (second : p.slots[j]? = some (some f)) : i = j := by
  obtain ⟨c, left, name, rfl⟩ := sound.holder i f first
  obtain ⟨d, right, again, rfl⟩ := sound.holder j f second
  rw [sound.ordered.eq_of_finger left right (name.trans again.symm)]

theorem slots_differ (sound : p.Sound max) : p.contacts.Pairwise fun a b => a.slot ≠ b.slot := by
  refine sound.ordered.imp_of_mem fun {a b} left right below same => ?_
  have first := sound.held a left
  rw [same, sound.held b right] at first
  simp only [Option.some.injEq] at first
  rw [first] at below
  exact UInt32.lt_irrefl _ below

/-- The fingers in contact are the fingers in the slots. -/
theorem fingers_perm (sound : p.Sound max) :
    (p.contacts.map Contact.finger).Perm (p.slots.filterMap id) := by
  have contacts : (p.contacts.map Contact.finger).Nodup := sound.ordered.nodup
  have slots : (p.slots.filterMap id).Nodup := by
    rw [List.Nodup, List.pairwise_filterMap, List.pairwise_iff_getElem]
    intro i j inside after before f first g second same
    subst same
    have apart := sound.slot_unique (List.getElem?_eq_some_iff.mpr ⟨inside, first⟩)
      (List.getElem?_eq_some_iff.mpr ⟨after, second⟩)
    omega
  rw [List.perm_ext_iff_of_nodup contacts slots]
  intro f
  rw [List.mem_map, List.mem_filterMap]
  constructor
  · rintro ⟨c, member, rfl⟩
    exact ⟨_, List.mem_of_getElem? (sound.held c member), rfl⟩
  · rintro ⟨_, member, rfl⟩
    obtain ⟨i, used⟩ := List.mem_iff_getElem?.mp member
    obtain ⟨c, present, same, -⟩ := sound.holder i f used
    exact ⟨c, present, same⟩

theorem activeCount_eq (sound : p.Sound max) :
    p.activeCount = p.slots.countP Option.isSome := by
  have lengths := sound.fingers_perm.length_eq
  rwa [List.length_map, List.length_filterMap_eq_countP] at lengths

end Sound

theorem Reachable.sound (reached : p.Reachable max) : p.Sound max := by
  induction reached with
  | fresh => exact sound_ofSlots max
  | touch e _ ih => exact ih.touch e
  | drain _ ih => exact ih.drain
  | resolve r bounded _ ih => exact ih.withResolution bounded

/-- The slots, the contacts and the tracking ids of a panel of `max` slots agree. The tracking ids
fit 64 bits as long as the latest does. -/
structure Coherent (max : Nat) (p : Panel) : Prop where
  slots_length : p.slots.length = max
  found : ∀ f c, p.contact? f = some c ↔ c ∈ p.contacts ∧ c.finger = f
  held : ∀ c ∈ p.contacts, c.slot < max ∧ p.slots[c.slot]? = some (some c.finger)
  holder : ∀ (slot : Nat) (f : Finger), p.slots[slot]? = some (some f) →
    ∃ c ∈ p.contacts, c.finger = f ∧ c.slot = slot
  slots_differ : p.contacts.Pairwise fun a b => a.slot ≠ b.slot
  slot_unique : ∀ (i j : Nat) (f : Finger),
    p.slots[i]? = some (some f) → p.slots[j]? = some (some f) → i = j
  active : p.activeCount = p.slots.countP Option.isSome
  active_le : p.activeCount ≤ max
  ids_differ : p.contacts.Pairwise fun a b => a.trackingId ≠ b.trackingId
  ids_given : ∀ c ∈ p.contacts, 1 ≤ c.trackingId ∧ c.trackingId ≤ p.lastTrackingId
  ids_fit : p.lastTrackingId < UInt64.size → ∀ c ∈ p.contacts, c.trackingId < UInt64.size
  ordered : p.contacts.Pairwise fun a b => a.finger.index < b.finger.index

theorem reachable_coherent (reached : p.Reachable max) : p.Coherent max := by
  have sound := reached.sound
  constructor
  case slots_length => exact sound.slots_length
  case found =>
    intro f c
    refine ⟨finger_of_contact?, ?_⟩
    rintro ⟨member, rfl⟩
    exact sound.ordered.find?_eq_some member
  case held =>
    intro c member
    have full := sound.held c member
    exact ⟨sound.slots_length ▸ (List.getElem?_eq_some_iff.mp full).1, full⟩
  case holder => exact sound.holder
  case slots_differ => exact sound.slots_differ
  case slot_unique => exact fun i j f => sound.slot_unique
  case active => exact sound.activeCount_eq
  case active_le =>
    rw [sound.activeCount_eq, ← sound.slots_length]
    exact List.countP_le_length
  case ids_differ => exact sound.ids_differ
  case ids_given => exact sound.ids_given
  case ids_fit => exact fun few c member => Nat.lt_of_le_of_lt (sound.ids_given c member).2 few
  case ordered => exact sound.ordered

/-- Two slots and a small screen: fingers 7 and 3 go down, finger 7 again and finger 5 are refused,
7 lifts after the log was handed out, and 5 takes its slot. -/
theorem reachable_coherent_two_slots :
    ∃ p : Panel, p.Reachable 2 ∧ p.slots = [some ⟨5⟩, some ⟨3⟩] ∧ p.Coherent 2 := by
  have screen : (⟨100, 50⟩ : Resolution).Bounded := by
    constructor <;> decide
  have reached := ((((((((@Reachable.fresh 2).resolve _ screen).touch
    (.down ⟨7⟩ ⟨1, 2⟩)).touch (.down ⟨3⟩ ⟨300, -4⟩)).touch (.down ⟨7⟩ ⟨0, 0⟩)).touch
    (.down ⟨5⟩ ⟨0, 0⟩)).drain).touch (.up ⟨7⟩)).touch (.down ⟨5⟩ ⟨9, 9⟩)
  exact ⟨_, reached, by decide +kernel, reachable_coherent reached⟩

end TouchGesture.Panel
