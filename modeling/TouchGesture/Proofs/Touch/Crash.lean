import TouchGesture.Proofs.Touch.Guests

/-! Panels with resolutions of any kind. One that has no place for a point makes moves and presses
crash, and a press that crashes has taken its slot by then. -/

namespace TouchGesture

theorem Resolution.clamp?_eq_none {r : Resolution} {spot : Position} :
    r.clamp? spot = none ↔ ¬ r.Bounded := by
  refine ⟨fun nowhere bounded => ?_, fun unbounded => ?_⟩
  · have somewhere := Resolution.clamp?_isSome bounded spot
    rw [nowhere] at somewhere
    cases somewhere
  · rw [Bounded, Classical.not_and_iff_not_or_not] at unbounded
    rcases unbounded with width | height
    · simp [clamp?, clampTo?, width]
    · by_cases width : 0 ≤ r.width <;> simp [clamp?, clampTo?, width, height]

namespace Panel

theorem place?_eq_none {p : Panel} {spot : Position} : p.place? spot = none ↔ ¬ p.Bounded := by
  cases given : p.resolution with
  | none => simp [place?, Bounded, given]
  | some r => simp [place?, Bounded, given, Resolution.clamp?_eq_none]

def claim (p : Panel) (slot : Nat) (f : Finger) : Panel :=
  { p with
    slots := p.slots.set slot (some f)
    lastTrackingId := p.lastTrackingId + 1 }

def Leaks (p : Panel) : TouchEvent → Prop
  | .down f _ => ¬ p.isDown f ∧ none ∈ p.slots ∧ ¬ p.Bounded
  | _ => False

inductive Outcome (p : Panel) : TouchEvent → Verdict × Panel → Prop
  | kept {e : TouchEvent} {verdict : Verdict} : verdict ≠ .accepted → ¬ p.Leaks e →
      Outcome p e (verdict, p)
  | leaked {f : Finger} {spot : Position} {slot : Nat} : p.Leaks (.down f spot) →
      p.slots.findIdx? Option.isNone = some slot →
        Outcome p (.down f spot) (.crashed, p.claim slot f)
  | pressed {f : Finger} {spot : Position} {slot : Nat} (point : Position) :
      ¬ p.Leaks (.down f spot) → ¬ p.isDown f → p.slots.findIdx? Option.isNone = some slot →
      Outcome p (.down f spot) (.accepted, p.attach ⟨f, slot, p.lastTrackingId + 1, point⟩)
  | slid {f : Finger} {spot : Position} (point : Position) :
      Outcome p (.move f spot) (.accepted, p.relocate f point)
  | lifted {c : Contact} : c ∈ p.contacts → Outcome p (.up c.finger) (.accepted, p.detach c)

theorem press_outcome (p : Panel) (f : Finger) (spot : Position) :
    p.Outcome (.down f spot) (p.press f spot) := by
  by_cases bounded : p.Bounded
  · have safe : ¬ p.Leaks (.down f spot) := fun leaks => leaks.2.2 bounded
    rcases press_cases bounded f spot with
      ⟨-, refused⟩ | ⟨-, -, refused⟩ | ⟨slot, point, up, free, -, accepted⟩
    · exact refused ▸ .kept nofun safe
    · exact refused ▸ .kept nofun safe
    · exact accepted ▸ .pressed point safe up free
  · rw [press]
    by_cases down : p.isDown f
    · rw [if_pos down]
      exact .kept nofun fun leaks => leaks.1 down
    · rw [if_neg down]
      cases free : p.slots.findIdx? Option.isNone with
      | none =>
          refine .kept nofun fun leaks => ?_
          exact List.count_eq_zero.mp (first_free_eq_none.mp free) leaks.2.1
      | some slot =>
          have vacant := List.mem_of_getElem? (getElem?_first_free free)
          simp only [place?_eq_none.mpr bounded]
          exact .leaked ⟨down, vacant, bounded⟩ free

theorem slide_outcome (p : Panel) (f : Finger) (spot : Position) :
    p.Outcome (.move f spot) (p.slide f spot) := by
  by_cases bounded : p.Bounded
  · rcases slide_cases bounded f spot with ⟨-, refused⟩ | ⟨point, -, -, accepted⟩
    · exact refused ▸ .kept (by simp) id
    · exact accepted ▸ .slid point
  · rw [slide, place?_eq_none.mpr bounded]
    exact .kept (by simp) id

theorem lift_outcome (p : Panel) (f : Finger) : p.Outcome (.up f) (p.lift f) := by
  rcases lift_cases p f with ⟨-, refused⟩ | ⟨c, found, rfl, accepted⟩
  · exact refused ▸ .kept nofun id
  · exact accepted ▸ .lifted (finger_of_contact? found).1

theorem touch_outcome (p : Panel) (e : TouchEvent) : p.Outcome e (touch e p) := by
  cases e with
  | down f spot => exact p.press_outcome f spot
  | move f spot => exact p.slide_outcome f spot
  | up f => exact p.lift_outcome f

/-- The panels that come about from a fresh one of `max` slots by touches, even such as crash, by
handing out the log and by setting resolutions of any kind. -/
inductive Attainable (max : Nat) : Panel → Prop
  | fresh : Attainable max (ofSlots max)
  | touch {p : Panel} (e : TouchEvent) : Attainable max p → Attainable max (Panel.touch e p).2
  | drain {p : Panel} : Attainable max p → Attainable max p.drain.2
  | resolve {p : Panel} (r : Resolution) : Attainable max p → Attainable max (p.withResolution r)

/-- Every contact holds its slot, and besides theirs some slots are taken that no contact holds. -/
structure Strayed (max lost : Nat) (p : Panel) : Prop where
  slots_length : p.slots.length = max
  held : p.Held
  ordered : Finger.Ordered Contact.finger p.contacts
  taken : p.slots.countP Option.isSome = p.contacts.length + lost

variable {max lost : Nat} {p : Panel}

theorem countP_set_first_free {slots : List (Option Finger)} {slot : Nat} (f : Finger)
    (free : slots[slot]? = some none) :
    (slots.set slot (some f)).countP Option.isSome = slots.countP Option.isSome + 1 := by
  obtain ⟨inside, vacant⟩ := List.getElem?_eq_some_iff.mp free
  rw [List.countP_set inside, vacant]
  simp

theorem countP_set_taken {slots : List (Option Finger)} {slot : Nat} {f : Finger}
    (taken : slots[slot]? = some (some f)) :
    (slots.set slot none).countP Option.isSome + 1 = slots.countP Option.isSome := by
  obtain ⟨inside, full⟩ := List.getElem?_eq_some_iff.mp taken
  have positive : 0 < slots.countP Option.isSome :=
    List.countP_pos_iff.mpr ⟨some f, List.mem_of_getElem? taken, rfl⟩
  rw [List.countP_set inside, full]
  simp
  omega

namespace Strayed

theorem ofSlots (max : Nat) : Strayed max 0 (ofSlots max) where
  slots_length := List.length_replicate
  held := nofun
  ordered := .nil
  taken := by simp [Panel.ofSlots, List.countP_replicate]

theorem claim (strayed : Strayed max lost p) {slot : Nat} (f : Finger)
    (free : p.slots[slot]? = some none) : Strayed max (lost + 1) (p.claim slot f) where
  slots_length := by simpa [Panel.claim] using strayed.slots_length
  held c member := by
    have apart := strayed.held.apart free member
    simpa only [Panel.claim, List.getElem?_set_ne apart] using strayed.held c member
  ordered := strayed.ordered
  taken := by
    have before := strayed.taken
    simp only [Panel.claim]
    rw [countP_set_first_free f free]
    omega

theorem attach (strayed : Strayed max lost p) {a : Contact} (up : ¬ p.isDown a.finger)
    (free : p.slots[a.slot]? = some none) : Strayed max lost (p.attach a) where
  slots_length := by simpa [Panel.attach] using strayed.slots_length
  held := strayed.held.attach free
  ordered := strayed.ordered.insertBy fun c member same => up (isDown_iff.mpr ⟨c, member, same⟩)
  taken := by
    have before := strayed.taken
    simp only [Panel.attach]
    rw [countP_set_first_free a.finger free, (Finger.insertBy_perm _ _ _).length_eq,
      List.length_cons]
    omega

theorem relocate (strayed : Strayed max lost p) (f : Finger) (point : Position) :
    Strayed max lost (p.relocate f point) where
  slots_length := strayed.slots_length
  held := strayed.held.relocate f point
  ordered := ordered_relocate strayed.ordered f point
  taken := by
    simp only [Panel.relocate, List.length_map]
    exact strayed.taken

theorem detach (strayed : Strayed max lost p) {a : Contact} (member : a ∈ p.contacts) :
    Strayed max lost (p.detach a) where
  slots_length := by simpa [Panel.detach] using strayed.slots_length
  held := strayed.held.detach member
  ordered := strayed.ordered.filter _
  taken := by
    have before := strayed.taken
    have slots := countP_set_taken (strayed.held a member)
    have contacts := strayed.ordered.length_filter_ne member
    simp only [Panel.detach]
    omega

theorem touch (strayed : Strayed max lost p) (e : TouchEvent) :
    (¬ p.Leaks e → Strayed max lost (Panel.touch e p).2) ∧
      (p.Leaks e → Strayed max (lost + 1) (Panel.touch e p).2) := by
  have outcome := p.touch_outcome e
  generalize Panel.touch e p = result at outcome ⊢
  cases outcome with
  | kept _ safe => exact ⟨fun _ => strayed, fun leaks => absurd leaks safe⟩
  | leaked leaks free =>
      exact ⟨fun safe => absurd leaks safe, fun _ => strayed.claim _ (getElem?_first_free free)⟩
  | pressed point safe up free =>
      have stay := strayed.attach
        (a := ⟨_, _, p.lastTrackingId + 1, point⟩) up (getElem?_first_free free)
      exact ⟨fun _ => stay, fun leaks => absurd leaks safe⟩
  | slid point => exact ⟨fun _ => strayed.relocate _ point, False.elim⟩
  | lifted member => exact ⟨fun _ => strayed.detach member, False.elim⟩

end Strayed

theorem Attainable.strayed (reached : p.Attainable max) : ∃ lost, Strayed max lost p := by
  induction reached with
  | fresh => exact ⟨0, .ofSlots max⟩
  | @touch p e _ ih =>
      obtain ⟨lost, strayed⟩ := ih
      -- one slot more is lost exactly if the touch leaks
      by_cases leaks : p.Leaks e
      · exact ⟨_, (strayed.touch e).2 leaks⟩
      · exact ⟨_, (strayed.touch e).1 leaks⟩
  | drain _ ih =>
      obtain ⟨lost, strayed⟩ := ih
      exact ⟨lost, strayed.slots_length, strayed.held, strayed.ordered, strayed.taken⟩
  | resolve r _ ih =>
      obtain ⟨lost, strayed⟩ := ih
      exact ⟨lost, strayed.slots_length, strayed.held, strayed.ordered, strayed.taken⟩

def stray (p : Panel) : Nat := p.slots.countP Option.isSome - p.contacts.length

theorem Strayed.stray_eq (strayed : Strayed max lost p) : p.stray = lost := by
  rw [Panel.stray, strayed.taken, Nat.add_sub_cancel_left]

/-- A slot that strays is not given back, whatever is done: a touch that does not leak leaves as
many astray as there were, and one that does leaves one more. -/
theorem Attainable.stray_touch (reached : p.Attainable max) (e : TouchEvent) :
    (¬ p.Leaks e → (Panel.touch e p).2.stray = p.stray) ∧
      (p.Leaks e → (Panel.touch e p).2.stray = p.stray + 1) := by
  obtain ⟨lost, strayed⟩ := reached.strayed
  have next := strayed.touch e
  rw [strayed.stray_eq]
  exact ⟨fun safe => (next.1 safe).stray_eq, fun leaks => (next.2 leaks).stray_eq⟩

/-- A touch that is not accepted leaves all as it was, unless it is a press that would be accepted
if there were a place for its point. Such a press crashes when it has taken the first free slot and
the next tracking id, and it keeps both. -/
theorem failed_touch_keeps_iff (reached : p.Attainable max) {e : TouchEvent}
    (failed : (touch e p).1 ≠ .accepted) :
    ((touch e p).2.slots = p.slots ∧ (touch e p).2.contacts = p.contacts ∧
        (touch e p).2.lastTrackingId = p.lastTrackingId ∧ (touch e p).2.log = p.log ↔
      ¬ p.Leaks e) ∧
    (p.Leaks e →
      (touch e p).1 = .crashed ∧ (touch e p).2.slots = seat p.slots [e.finger] ∧
        (touch e p).2.contacts = p.contacts ∧
        (touch e p).2.lastTrackingId = p.lastTrackingId + 1 ∧ (touch e p).2.log = p.log ∧
        (touch e p).2.stray = p.stray + 1) := by
  have astray := (reached.stray_touch e).2
  have outcome := p.touch_outcome e
  generalize touch e p = result at outcome failed astray ⊢
  cases outcome with
  | kept _ safe => exact ⟨⟨fun _ => safe, fun _ => ⟨rfl, rfl, rfl, rfl⟩⟩,
      fun leaks => absurd leaks safe⟩
  | leaked leaks free =>
      refine ⟨⟨fun same => ?_, fun safe => absurd leaks safe⟩, fun _ => ?_⟩
      · exact absurd same.2.2.1 (Nat.succ_ne_self _)
      · exact ⟨rfl, set_first_free _ free, rfl, rfl, rfl, astray leaks⟩
  | pressed _ _ _ _ => exact absurd rfl failed
  | slid _ => exact absurd rfl failed
  | lifted _ => exact absurd rfl failed

/-- The width is not a number. -/
theorem failed_touch_keeps_iff_no_width :
    ∃ p : Panel, p.Attainable 1 ∧ p.Leaks (.down ⟨0⟩ ⟨1, 1⟩) ∧
      (touch (.down ⟨0⟩ ⟨1, 1⟩) p).1 ≠ .accepted ∧
      (touch (.down ⟨0⟩ ⟨1, 1⟩) p).2.slots = seat p.slots [⟨0⟩] ∧
      (touch (.down ⟨0⟩ ⟨1, 1⟩) p).2.stray = p.stray + 1 := by
  have reached := (@Attainable.fresh 1).resolve ⟨0 / 0, 5⟩
  have leaks : ((ofSlots 1).withResolution ⟨0 / 0, 5⟩).Leaks (.down ⟨0⟩ ⟨1, 1⟩) :=
    ⟨by decide, by decide, place?_eq_none.mp (by decide +kernel : place? _ ⟨1, 1⟩ = none)⟩
  have failed : (touch (.down ⟨0⟩ ⟨1, 1⟩) ((ofSlots 1).withResolution ⟨0 / 0, 5⟩)).1 ≠
      .accepted := by
    decide +kernel
  obtain ⟨-, slots, -, -, -, stray⟩ := (failed_touch_keeps_iff reached failed).2 leaks
  exact ⟨_, reached, leaks, failed, slots, stray⟩

/-- A press on a panel of one slot whose width is not a number crashes and keeps the slot. When the
panel has a width, the same press finds no slot free. -/
theorem crashed_press_keeps_slot :
    ∃ p : Panel, p = (ofSlots 1).withResolution ⟨0 / 0, 5⟩ ∧ p.Attainable 1 ∧
      p.slots = [none] ∧ p.lastTrackingId = 0 ∧
      (touch (.down ⟨0⟩ ⟨1, 1⟩) p).1 = .crashed ∧
      (touch (.down ⟨0⟩ ⟨1, 1⟩) p).2.slots = [some ⟨0⟩] ∧
      (touch (.down ⟨0⟩ ⟨1, 1⟩) p).2.contacts = [] ∧
      (touch (.down ⟨0⟩ ⟨1, 1⟩) p).2.lastTrackingId = 1 ∧
      (touch (.down ⟨0⟩ ⟨1, 1⟩)
        ((touch (.down ⟨0⟩ ⟨1, 1⟩) p).2.withResolution ⟨10, 10⟩)).1 =
        .rejected (.noFreeSlot 1) :=
  ⟨_, rfl, .resolve _ .fresh, rfl, rfl, by decide +kernel, by decide +kernel, by decide +kernel,
    by decide +kernel, by decide +kernel⟩

end Panel

end TouchGesture
