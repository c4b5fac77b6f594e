import TouchGesture.Proofs.Double.Order
import TouchGesture.Proofs.Touch.Panel
import TouchGesture.Proofs.Touch.Recorder
import TouchGesture.Proofs.Touch.Sequence

/-! The log of a panel. A touch that is refused leaves nothing behind, and one that is accepted is
logged with the point where it came to be. The log, made over again, therefore leads to the same
panel. -/

namespace TouchGesture

namespace Resolution

theorem clampTo?_again {bound v w : Float} (clamped : clampTo? bound v = some w) :
    clampTo? bound w = some w := by
  by_cases range : 0 ≤ bound
  · have negative : ¬ bound < 0 := Double.not_lt_of_le range
    have zero : ¬ (0 : Float) < 0 := Double.lt_irrefl 0
    have same : ¬ bound < bound := Double.lt_irrefl bound
    simp only [clampTo?, range, if_true, Option.some.injEq] at clamped ⊢
    -- what is clamped is the bound, zero, or a number that was in the range
    by_cases low : v < 0
    · simp only [low, if_true, negative, if_false] at clamped
      subst clamped
      simp only [zero, negative, if_false]
    · simp only [low, if_false] at clamped
      by_cases high : bound < v
      · simp only [high, if_true] at clamped
        subst clamped
        simp only [negative, same, if_false]
      · simp only [high, if_false] at clamped
        subst clamped
        simp only [low, high, if_false]
  · simp [clampTo?, range] at clamped

theorem clamp?_again {r : Resolution} {spot point : Position}
    (clamped : r.clamp? spot = some point) :
    r.clamp? point = some point := by
  simp only [clamp?, bind, Option.bind_eq_some_iff] at clamped
  obtain ⟨x, across, y, down, made⟩ := clamped
  obtain rfl : Point.mk x y = point := Option.some.inj made
  simp [clamp?, clampTo?_again across, clampTo?_again down]

end Resolution

namespace Panel

variable {p : Panel}

theorem place?_again {spot point : Position} (placed : p.place? spot = some point) :
    p.place? point = some point := by
  rw [place?] at placed ⊢
  cases given : p.resolution with
  | none => rfl
  | some r =>
      rw [given] at placed
      exact Resolution.clamp?_again placed

def fingers (p : Panel) : List Finger := p.contacts.map Contact.finger

theorem mem_fingers {f : Finger} : f ∈ p.fingers ↔ p.isDown f := by
  rw [fingers, List.mem_map, isDown_iff]

structure Logs (p : Panel) (told : TouchEvent) (q : Panel) : Prop where
  again : touch told p = (.accepted, q)
  resolution : q.resolution = p.resolution
  log : q.log = p.log.push told
  suits : told.Suits p.fingers
  fingers : q.fingers = told.settle p.fingers
  contacts : ∀ c ∈ q.contacts,
    (c.finger = told.finger ∧ told.point? = some c.point) ∨
      (c.finger ≠ told.finger ∧ c ∈ p.contacts)

inductive Entry (p : Panel) : Verdict × Panel → Prop
  | refused (refusal : Refusal) : Entry p (.rejected refusal, p)
  | logged {told : TouchEvent} {q : Panel} : Logs p told q → Entry p (.accepted, q)

theorem press_again {f : Finger} {spot point : Position} (up : ¬ p.isDown f) {slot : Nat}
    (free : p.slots.findIdx? Option.isNone = some slot) (placed : p.place? spot = some point) :
    touch (.down f point) p = (.accepted, p.attach ⟨f, slot, p.lastTrackingId + 1, point⟩) := by
  have again : p.place? point = some point := place?_again placed
  simp only [touch, press, up, free, again, Bool.false_eq_true, if_false]
  rfl

theorem slide_again {f : Finger} {spot point : Position} (down : p.isDown f)
    (placed : p.place? spot = some point) :
    touch (.move f point) p = (.accepted, p.relocate f point) := by
  have again : p.place? point = some point := place?_again placed
  simp only [touch, slide, down, again, if_true]
  rfl

theorem logs_press {f : Finger} {spot point : Position} (up : ¬ p.isDown f) {slot : Nat}
    (free : p.slots.findIdx? Option.isNone = some slot) (placed : p.place? spot = some point) :
    Logs p (.down f point) (p.attach ⟨f, slot, p.lastTrackingId + 1, point⟩) where
  again := press_again up free placed
  resolution := rfl
  log := rfl
  suits := by
    intro member
    exact up (mem_fingers.mp member)
  fingers := Finger.map_insertBy _ _ _
  contacts := by
    intro c member
    rcases Finger.mem_insertBy.mp member with rfl | old
    · exact .inl ⟨rfl, rfl⟩
    · refine .inr ⟨?_, old⟩
      intro same
      exact up (isDown_iff.mpr ⟨c, old, same⟩)

theorem logs_slide {f : Finger} {spot point : Position} (down : p.isDown f)
    (placed : p.place? spot = some point) : Logs p (.move f point) (p.relocate f point) where
  again := slide_again down placed
  resolution := rfl
  log := rfl
  suits := mem_fingers.mpr down
  fingers := by
    simp only [fingers, relocate, List.map_map, Touch.settle]
    apply List.map_congr_left
    intro c _
    simp only [Function.comp_apply]
    split <;> rfl
  contacts := by
    intro c member
    obtain ⟨before, old, rfl⟩ := List.mem_map.mp member
    by_cases same : before.finger = f
    · left
      simp [same, Touch.finger, Touch.point?]
    · right
      simp [same, old, Touch.finger]

theorem logs_lift {c : Contact} (found : p.contact? c.finger = some c) :
    Logs p (.up c.finger) (p.detach c) where
  again := by
    simp only [touch, lift, found]
    rfl
  resolution := rfl
  log := rfl
  suits := mem_fingers.mpr (by simp [isDown, found])
  fingers := by
    simp only [fingers, detach, Touch.settle, List.filter_map]
    rfl
  contacts := by
    intro d member
    obtain ⟨old, differ⟩ := List.mem_filter.mp member
    exact .inr ⟨by simpa [Touch.finger] using differ, old⟩

theorem touch_entry (bounded : p.Bounded) (e : TouchEvent) : Entry p (touch e p) := by
  cases e with
  | down f spot =>
      rw [touch]
      rcases press_cases bounded f spot with
        ⟨-, refused⟩ | ⟨-, -, refused⟩ | ⟨slot, point, up, free, placed, accepted⟩
      · exact refused ▸ .refused _
      · exact refused ▸ .refused _
      · exact accepted ▸ .logged (logs_press up free placed)
  | move f spot =>
      rw [touch]
      rcases slide_cases bounded f spot with ⟨-, refused⟩ | ⟨point, down, placed, accepted⟩
      · exact refused ▸ .refused _
      · exact accepted ▸ .logged (logs_slide down placed)
  | up f =>
      rw [touch]
      rcases lift_cases p f with ⟨-, refused⟩ | ⟨c, found, rfl, accepted⟩
      · exact refused ▸ .refused _
      · exact accepted ▸ .logged (logs_lift found)

theorem touch_bounded (bounded : p.Bounded) (e : TouchEvent) : (touch e p).2.Bounded := by
  have entry := touch_entry bounded e
  generalize touch e p = result at entry ⊢
  cases entry with
  | refused _ => exact bounded
  | logged logs =>
      intro r given
      exact bounded r (logs.resolution ▸ given)

def fresh (max : Nat) (resolution : Option Resolution) : Panel := { ofSlots max with resolution }

theorem bounded_fresh {max : Nat} {resolution : Option Resolution}
    (bounded : ∀ r, resolution = some r → r.Bounded) : (fresh max resolution).Bounded := bounded

/-- The touches in the log of a panel, made one after another on a panel that has none yet, are all
accepted and lead to the panel. -/
structure Retold (start p : Panel) : Prop where
  answers : device.answers p.log.toList start = List.replicate p.log.size .accepted
  after : device.after p.log.toList start = p

theorem Retold.touch {start : Panel} (retold : Retold start p) (bounded : p.Bounded)
    (e : TouchEvent) : Retold start (Panel.touch e p).2 := by
  have entry := touch_entry bounded e
  generalize Panel.touch e p = result at entry ⊢
  cases entry with
  | refused _ => exact retold
  | @logged told q logs =>
      have last : device.touch told p = (.accepted, q) := logs.again
      constructor
      · rw [logs.log, Array.toList_push, device.answers_append, retold.answers, retold.after,
          Array.size_push, List.replicate_succ']
        simp [Device.answers, last]
      · rw [logs.log, Array.toList_push, device.after_append, retold.after]
        simp [Device.after, last]

/-- Whatever was done to a panel, its log tells how it came about: on a fresh panel of the same kind
every touch of the log is accepted, and they lead to the same slots, contacts, tracking ids and
log. -/
theorem log_retells (max : Nat) {resolution : Option Resolution}
    (bounded : ∀ r, resolution = some r → r.Bounded) (events : List TouchEvent) :
    Retold (fresh max resolution) (device.after events (fresh max resolution)) := by
  have start : Retold (fresh max resolution) (fresh max resolution) := ⟨rfl, rfl⟩
  have last := device.after_preserves (fun p => Retold (fresh max resolution) p ∧ p.Bounded)
    (fun e p held => ⟨held.1.touch held.2 e, touch_bounded held.2 e⟩) events
    ⟨start, bounded_fresh bounded⟩
  exact last.1

/-- On a small screen finger 7 goes down beyond the edge, finger 3 finds no slot, and 7 moves to a
place that is not a number and lifts. -/
theorem log_retells_beyond_edge :
    ∃ p : Panel, Retold (fresh 1 (some ⟨100, 50⟩)) p ∧
      p.log.toList = [.down ⟨7⟩ ⟨100, 0⟩, .move ⟨7⟩ ⟨0 / 0, 50⟩, .up ⟨7⟩,
        .down ⟨3⟩ ⟨1, 2⟩] ∧
      p.contacts = [⟨⟨3⟩, 0, 2, ⟨1, 2⟩⟩] := by
  have bounded : ∀ r, some (⟨100, 50⟩ : Resolution) = some r → r.Bounded := by
    rintro r ⟨⟩
    constructor <;> decide
  exact ⟨_,
    log_retells 1 bounded [.down ⟨7⟩ ⟨300, -4⟩, .down ⟨3⟩ ⟨0, 0⟩,
      .move ⟨7⟩ ⟨0 / 0, 60⟩, .up ⟨7⟩, .up ⟨7⟩, .down ⟨3⟩ ⟨1, 2⟩],
    by decide +kernel, by decide +kernel⟩

end Panel

end TouchGesture
