import Mathlib.Order.Bounds.Defs
import TouchGesture.Proofs.Touch.Arena

/-! What a panel gives to a finger that comes: the least slot that no contact holds, and the next
tracking id. The finger keeps both until it goes up. -/

namespace TouchGesture

structure Contact.Stays (c d : Contact) : Prop where
  finger : d.finger = c.finger
  slot : d.slot = c.slot
  trackingId : d.trackingId = c.trackingId

namespace Panel

inductive Use where
  | touch (e : TouchEvent)
  | drain
  | resolve (r : Resolution)

namespace Use

def Safe : Use → Prop
  | .resolve r => r.Bounded
  | _ => True

def apply : Use → Panel → Panel
  | .touch e, p => (Panel.touch e p).2
  | .drain, p => p.drain.2
  | .resolve r, p => p.withResolution r

def newcomer? : Use → Panel → Option Contact
  | .touch (.down f spot), p =>
      match p.press f spot with
      | (.accepted, q) => q.contact? f
      | _ => none
  | _, _ => none

end Use

def afterUses (uses : List Use) (p : Panel) : Panel := uses.foldl (fun q use => use.apply q) p

def newcomers : List Use → Panel → List Contact
  | [], _ => []
  | use :: rest, p => (use.newcomer? p).toList ++ newcomers rest (use.apply p)

variable {max : Nat} {p : Panel} {f : Finger} {spot : Position}

namespace Sound

theorem apply (sound : p.Sound max) {use : Use} (safe : use.Safe) : (use.apply p).Sound max := by
  cases use with
  | touch e => exact sound.touch e
  | drain => exact sound.drain
  | resolve r => exact sound.withResolution safe

theorem afterUses (sound : p.Sound max) {uses : List Use} (safe : ∀ use ∈ uses, use.Safe) :
    (p.afterUses uses).Sound max := by
  induction uses generalizing p with
  | nil => exact sound
  | cons use rest ih =>
      obtain ⟨first, later⟩ := List.forall_mem_cons.mp safe
      exact ih (sound.apply first) later

theorem contact?_eq_some (sound : p.Sound max) {c : Contact} (member : c ∈ p.contacts) :
    p.contact? c.finger = some c :=
  sound.ordered.find?_eq_some member

/-- The first slot that is free is the least that no contact holds. -/
theorem isLeast_first_free (sound : p.Sound max) {slot : Nat}
    (free : p.slots.findIdx? Option.isNone = some slot) :
    slot < max ∧ IsLeast {i | ∀ c ∈ p.contacts, c.slot ≠ i} slot := by
  obtain ⟨inside, -, before⟩ := List.findIdx?_eq_some_iff_getElem.mp free
  refine ⟨sound.slots_length ▸ inside, ?_, ?_⟩
  · intro c member same
    exact Held.apart sound.held (getElem?_first_free free) member same.symm
  · intro i unheld
    refine Nat.le_of_not_lt fun early => ?_
    have taken := before i early
    cases holder : p.slots[i] with
    | none => simp [holder] at taken
    | some g =>
        obtain ⟨c, member, -, same⟩ :=
          sound.holder i g (List.getElem?_eq_some_iff.mpr ⟨_, holder⟩)
        exact unheld c member same

theorem no_first_free_iff (sound : p.Sound max) :
    p.slots.findIdx? Option.isNone = none ↔
      ∀ slot < max, ∃ c ∈ p.contacts, c.slot = slot := by
  constructor
  · intro full slot inside
    rw [← sound.slots_length] at inside
    have taken := List.findIdx?_eq_none_iff.mp full _ (List.getElem_mem inside)
    cases holder : p.slots[slot] with
    | none => simp [holder] at taken
    | some g =>
        obtain ⟨c, member, -, same⟩ :=
          sound.holder slot g (List.getElem?_eq_some_iff.mpr ⟨inside, holder⟩)
        exact ⟨c, member, same⟩
  · intro held
    cases free : p.slots.findIdx? Option.isNone with
    | none => rfl
    | some slot =>
        obtain ⟨inside, unheld, -⟩ := sound.isLeast_first_free free
        obtain ⟨c, member, same⟩ := held slot inside
        exact absurd same (unheld c member)

theorem press_accepted (sound : p.Sound max) (accepted : (p.press f spot).1 = .accepted) :
    ∃ c, p.press f spot = (.accepted, p.attach c) ∧ (p.attach c).contact? f = some c ∧
      ¬ p.isDown f ∧
      p.slots.findIdx? Option.isNone = some c.slot ∧ c.trackingId = p.lastTrackingId + 1 := by
  rcases press_cases sound.bounded f spot with
    ⟨-, refused⟩ | ⟨-, -, refused⟩ | ⟨slot, point, up, free, -, pressed⟩
  · rw [refused] at accepted
    cases accepted
  · rw [refused] at accepted
    cases accepted
  · have attached := sound.attach point up free
    exact ⟨_, pressed, attached.contact?_eq_some (Finger.mem_insertBy.mpr (.inl rfl)), up, free,
      rfl⟩

theorem press_kept (sound : p.Sound max) (refused : (p.press f spot).1 ≠ .accepted) :
    (p.press f spot).2 = p := by
  rcases press_cases sound.bounded f spot with
    ⟨-, answer⟩ | ⟨-, -, answer⟩ | ⟨slot, point, -, -, -, answer⟩
  · rw [answer]
  · rw [answer]
  · rw [answer] at refused
    exact absurd rfl refused

theorem press_refused_iff (sound : p.Sound max) (up : ¬ p.isDown f) :
    (p.press f spot).1 ≠ .accepted ↔ ∀ slot < max, ∃ c ∈ p.contacts, c.slot = slot := by
  rw [← sound.no_first_free_iff]
  rcases press_cases sound.bounded f spot with
    ⟨down, -⟩ | ⟨-, full, refused⟩ | ⟨slot, point, -, free, -, pressed⟩
  · exact absurd down up
  · simp [refused, full]
  · simp [pressed, free]

end Sound

/-- What a use gives out: a contact with the next tracking id, or no contact and no tracking id. -/
inductive Use.Effect (p : Panel) (use : Use) : Prop
  | arrival (c : Contact) : use.newcomer? p = some c → c.trackingId = p.lastTrackingId + 1 →
      (use.apply p).lastTrackingId = p.lastTrackingId + 1 → Effect p use
  | quiet : use.newcomer? p = none → (use.apply p).lastTrackingId = p.lastTrackingId →
      Effect p use

theorem Sound.press_effect (sound : p.Sound max) (f : Finger) (spot : Position) :
    Use.Effect p (.touch (.down f spot)) := by
  by_cases accepted : (p.press f spot).1 = .accepted
  · obtain ⟨c, pressed, found, -, -, next⟩ := sound.press_accepted accepted
    refine .arrival c ?_ next ?_
    · simp only [Use.newcomer?, pressed, found]
    · simp only [Use.apply, Panel.touch, pressed]
      exact next
  · have kept := sound.press_kept accepted
    refine .quiet ?_ ?_
    · rw [Use.newcomer?]
      split
      next same => exact absurd (congrArg Prod.fst same) accepted
      next => rfl
    · rw [Use.apply, Panel.touch, kept]

theorem Sound.effect (sound : p.Sound max) (use : Use) : use.Effect p := by
  cases use with
  | drain => exact .quiet rfl rfl
  | resolve r => exact .quiet rfl rfl
  | touch e =>
      cases e with
      | down f spot => exact sound.press_effect f spot
      | move f spot =>
          refine .quiet rfl ?_
          rw [Use.apply, Panel.touch]
          rcases slide_cases sound.bounded f spot with ⟨-, refused⟩ | ⟨point, -, -, slid⟩
          · rw [refused]
          · rw [slid]
            rfl
      | up f =>
          refine .quiet rfl ?_
          rw [Use.apply, Panel.touch]
          rcases lift_cases p f with ⟨-, refused⟩ | ⟨c, -, -, lifted⟩
          · rw [refused]
          · rw [lifted]
            rfl

/-- Tracking ids are given out in order, without a gap. -/
theorem Sound.newcomers_ids (sound : p.Sound max) {uses : List Use}
    (safe : ∀ use ∈ uses, use.Safe) :
    (newcomers uses p).map Contact.trackingId =
        List.range' (p.lastTrackingId + 1) (newcomers uses p).length ∧
      (p.afterUses uses).lastTrackingId = p.lastTrackingId + (newcomers uses p).length := by
  induction uses generalizing p with
  | nil => exact ⟨rfl, rfl⟩
  | cons use rest ih =>
      obtain ⟨first, later⟩ := List.forall_mem_cons.mp safe
      obtain ⟨ids, last⟩ := ih (sound.apply first) later
      rw [Panel.afterUses, List.foldl_cons, ← Panel.afterUses, last, newcomers]
      cases sound.effect use with
      | arrival c made next counted =>
          rw [counted] at ids ⊢
          rw [made, Option.toList_some, List.singleton_append, List.map_cons, ids, next,
            List.length_cons, List.range'_succ]
          exact ⟨rfl, by omega⟩
      | quiet none same =>
          rw [same] at ids ⊢
          rw [none, Option.toList_none, List.nil_append]
          exact ⟨ids, rfl⟩

/-- Whatever is done to the panel, a contact stays unless its finger goes up. -/
theorem Sound.contact_apply (sound : p.Sound max) {c : Contact} (member : c ∈ p.contacts)
    {use : Use}
    (other : use ≠ .touch (.up c.finger)) : ∃ d ∈ (use.apply p).contacts, c.Stays d := by
  have stays : c.Stays c := ⟨rfl, rfl, rfl⟩
  cases use with
  | drain => exact ⟨c, member, stays⟩
  | resolve r => exact ⟨c, member, stays⟩
  | touch e =>
      rw [Use.apply]
      cases e with
      | down f spot =>
          rw [Panel.touch]
          rcases press_cases sound.bounded f spot with
            ⟨-, refused⟩ | ⟨-, -, refused⟩ | ⟨slot, point, -, -, -, pressed⟩
          · exact refused ▸ ⟨c, member, stays⟩
          · exact refused ▸ ⟨c, member, stays⟩
          · rw [pressed]
            exact ⟨c, Finger.mem_insertBy.mpr (.inr member), stays⟩
      | move f spot =>
          rw [Panel.touch]
          rcases slide_cases sound.bounded f spot with ⟨-, refused⟩ | ⟨point, -, -, slid⟩
          · exact refused ▸ ⟨c, member, stays⟩
          · rw [slid]
            exact ⟨_, List.mem_map_of_mem member, finger_moved f point c, slot_moved f point c,
              trackingId_moved f point c⟩
      | up f =>
          rw [Panel.touch]
          rcases lift_cases p f with ⟨-, refused⟩ | ⟨gone, -, rfl, lifted⟩
          · exact refused ▸ ⟨c, member, stays⟩
          · rw [lifted]
            refine ⟨c, mem_detach.mpr ⟨member, ?_⟩, stays⟩
            intro same
            exact other (by rw [same])

theorem Sound.contact_afterUses (sound : p.Sound max) {c : Contact} (member : c ∈ p.contacts)
    {later : List Use} (safe : ∀ use ∈ later, use.Safe)
    (down : .touch (.up c.finger) ∉ later) :
    ∃ d ∈ (p.afterUses later).contacts, c.Stays d := by
  induction later generalizing p c with
  | nil => exact ⟨c, member, rfl, rfl, rfl⟩
  | cons use rest ih =>
      obtain ⟨first, others⟩ := List.forall_mem_cons.mp safe
      obtain ⟨other, still⟩ := not_or.mp (mt List.mem_cons.mpr down)
      obtain ⟨d, next, before⟩ := sound.contact_apply member (Ne.symm other)
      obtain ⟨e, last, after⟩ := ih (sound.apply first) next others (before.finger ▸ still)
      exact ⟨e, last, after.finger.trans before.finger, after.slot.trans before.slot,
        after.trackingId.trans before.trackingId⟩

/-- How a panel of `max` slots, which had these newcomers since it was fresh, gives out slots and
tracking ids. Tracking ids count the newcomers and nothing else; they fit 64 bits as long as that
count does. A newcomer takes the least slot that no contact holds, and keeps it and its tracking id
whatever is done, as long as its finger does not go up. -/
structure Allots (max : Nat) (past : List Contact) (p : Panel) : Prop where
  ids : past.map Contact.trackingId = List.range' 1 past.length
  counted : p.lastTrackingId = past.length
  fits : past.length < UInt64.size → ∀ c ∈ past, c.trackingId < UInt64.size
  press : ∀ f spot, (touch (.down f spot) p).1 = .accepted →
    ∃ c, (touch (.down f spot) p).2.contact? f = some c ∧
      Use.newcomer? (.touch (.down f spot)) p = some c ∧ c.trackingId = past.length + 1 ∧
      c.slot < max ∧ IsLeast {slot | ∀ d ∈ p.contacts, d.slot ≠ slot} c.slot
  refused_iff : ∀ f spot, ¬ p.isDown f →
    ((touch (.down f spot) p).1 ≠ .accepted ↔
      ∀ slot < max, ∃ c ∈ p.contacts, c.slot = slot)
  stays : ∀ c ∈ p.contacts, ∀ later : List Use, (∀ use ∈ later, use.Safe) →
    .touch (.up c.finger) ∉ later →
    ∃ d, (p.afterUses later).contact? c.finger = some d ∧ d.slot = c.slot ∧
      d.trackingId = c.trackingId

theorem uses_allot (max : Nat) {uses : List Use} (safe : ∀ use ∈ uses, use.Safe) :
    Allots max (newcomers uses (ofSlots max)) ((ofSlots max).afterUses uses) := by
  have sound := (sound_ofSlots max).afterUses safe
  obtain ⟨ids, counted⟩ := (sound_ofSlots max).newcomers_ids safe
  replace ids : (newcomers uses (ofSlots max)).map Contact.trackingId =
      List.range' 1 (newcomers uses (ofSlots max)).length := ids
  replace counted : ((ofSlots max).afterUses uses).lastTrackingId =
      (newcomers uses (ofSlots max)).length := counted.trans (Nat.zero_add _)
  constructor
  case ids => exact ids
  case counted => exact counted
  case fits =>
    intro few c member
    have given := List.mem_map_of_mem (f := Contact.trackingId) member
    rw [ids, List.mem_range'_1] at given
    omega
  case press =>
    intro f spot accepted
    obtain ⟨c, pressed, found, -, free, next⟩ := sound.press_accepted accepted
    obtain ⟨inside, least⟩ := sound.isLeast_first_free free
    refine ⟨c, ?_, ?_, ?_, inside, least⟩
    · rw [touch, pressed]
      exact found
    · simp only [Use.newcomer?, pressed, found]
    · rw [next, counted]
  case refused_iff =>
    intro f spot up
    exact sound.press_refused_iff up
  case stays =>
    intro c member later safe down
    obtain ⟨d, present, same⟩ := sound.contact_afterUses member safe down
    refine ⟨d, ?_, same.slot, same.trackingId⟩
    rw [← same.finger]
    exact (sound.afterUses safe).contact?_eq_some present

/-- Fingers 7 and 3 fill two slots, 5 finds none and 7 may not come twice. When 7 is gone and the
log was handed out, 5 takes the slot that 7 had, and the third tracking id. -/
theorem uses_allot_two_slots :
    ∃ uses : List Use,
      ((ofSlots 2).afterUses uses).contacts =
        [⟨⟨3⟩, 1, 2, ⟨100, 0⟩⟩, ⟨⟨5⟩, 0, 3, ⟨9, 9⟩⟩] ∧
      (newcomers uses (ofSlots 2)).map Contact.finger = [⟨7⟩, ⟨3⟩, ⟨5⟩] ∧
      Allots 2 (newcomers uses (ofSlots 2)) ((ofSlots 2).afterUses uses) := by
  have screen : (⟨100, 50⟩ : Resolution).Bounded := by
    constructor <;> decide
  have safe : ∀ use ∈ [Use.resolve ⟨100, 50⟩, .touch (.down ⟨7⟩ ⟨1, 2⟩),
      .touch (.down ⟨3⟩ ⟨300, -4⟩),
      .touch (.down ⟨5⟩ ⟨0, 0⟩), .touch (.down ⟨7⟩ ⟨0, 0⟩),
      .touch (.up ⟨7⟩), .drain,
      .touch (.down ⟨5⟩ ⟨9, 9⟩)], use.Safe := by
    simp [Use.Safe, screen]
  exact ⟨_, by decide +kernel, by decide +kernel, uses_allot 2 safe⟩

end Panel

end TouchGesture
