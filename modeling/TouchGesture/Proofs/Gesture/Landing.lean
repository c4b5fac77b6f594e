import TouchGesture.Proofs.Gesture.Dispatch
import TouchGesture.Proofs.Touch.Guests

/-! Fingers that go down on a panel one after another: how many of them land, which refusal stops
the rest, and what the panel then holds. -/

namespace TouchGesture

namespace Finger

theorem getElem?_first {n : UInt32} {k : Nat} {f : Finger} (here : (first n)[k]? = some f) :
    f = ⟨UInt32.ofNat k⟩ := by
  rw [first, List.getElem?_map, Option.map_eq_some_iff] at here
  obtain ⟨i, found, rfl⟩ := here
  obtain ⟨inside, same⟩ := List.getElem?_eq_some_iff.mp found
  rw [← same, List.getElem_range]

theorem ordered_first (n : UInt32) : Ordered id (first n) := by
  rw [Ordered, first, List.pairwise_map]
  refine List.pairwise_lt_range.imp_of_mem fun {i j} left right below => ?_
  have size : n.toNat < UInt32.size := n.toNat_lt_size
  have small : j < UInt32.size := by
    have inside := List.mem_range.mp right
    omega
  have first : (UInt32.ofNat i).toNat = i := UInt32.toNat_ofNat_of_lt (Nat.lt_trans below small)
  have second : (UInt32.ofNat j).toNat = j := UInt32.toNat_ofNat_of_lt small
  rw [id, id, UInt32.lt_iff_toNat_lt, first, second]
  exact below

theorem nodup_first (n : UInt32) : (first n).Nodup :=
  List.map_id (first n) ▸ (ordered_first n).nodup

end Finger

namespace Plan

variable (p : Plan Float)

theorem nodup_fingerNames : p.fingerNames.Nodup := Finger.nodup_first p.fingers

theorem Aligned.length_fingerNames {p : Plan Float} (aligned : p.Aligned) :
    p.fingerNames.length = p.starts.length := by
  rw [p.length_fingerNames, aligned.starts_length]

theorem exists_zoom :
    ∃ p : Plan Float, p.Made ∧ p.fingers = 2 ∧ p.fingerNames = [⟨0⟩, ⟨1⟩] ∧
      p.starts = [⟨-10, 0⟩, ⟨10, 0⟩] :=
  ⟨_, .inl ⟨_, Pinch.zoom_planned⟩, rfl, by decide +kernel, by decide +kernel⟩

end Plan

namespace Device

variable {σ : Type} (d : Device σ)

theorem offer_cons_eq_accepted {e : TouchEvent} {rest : List TouchEvent} {s t : σ} :
    d.offer (e :: rest) s = (.accepted, t) ↔
      ∃ u, d.touch e s = (.accepted, u) ∧ d.offer rest u = (.accepted, t) := by
  rw [offer]
  rcases d.touch e s with ⟨verdict, u⟩
  cases verdict <;> simp

theorem offer_cons_accepted {e : TouchEvent} {rest : List TouchEvent} {s t : σ}
    (accepted : d.touch e s = (.accepted, t)) : d.offer (e :: rest) s = d.offer rest t := by
  rw [offer, accepted]

end Device

namespace Panel

variable {max arrivals : Nat} {home p : Panel} {guests fingers : List Finger}
  {spots : List Position}

-- Induction on the fingers, over any panel that they visit: each press makes one more guest.
theorem Visited.offer_downs (visited : Visited max home arrivals guests p)
    (distinct : fingers.Nodup) (counts : fingers.length = spots.length)
    (up : ∀ f ∈ fingers, ¬ p.isDown f) (room : fingers.length ≤ p.slots.count none) :
    ∃ q, device.offer (List.zipWith .down fingers spots) p = (.accepted, q) ∧
      Visited max home (arrivals + fingers.length) (guests ++ fingers) q ∧
      q.slots = seat p.slots fingers ∧ (∀ c ∈ p.contacts, c ∈ q.contacts) ∧
      ∀ landing ∈ fingers.zip spots,
        ∃ c ∈ q.contacts, c.finger = landing.1 ∧ home.place? landing.2 = some c.point := by
  induction fingers generalizing spots arrivals guests p with
  | nil =>
      refine ⟨p, rfl, ?_, (seat_nil _).symm, fun c member => member, nofun⟩
      simpa using visited
  | cons f fingers ih =>
      cases spots with
      | nil => cases counts
      | cons spot spots =>
          obtain ⟨fresh, apart⟩ := List.nodup_cons.mp distinct
          have free : p.slots.count none ≠ 0 := by
            rw [List.length_cons] at room
            omega
          obtain ⟨c, rfl, placed, accepted, seated, here⟩ :=
            visited.press (up f List.mem_cons_self) free spot
          have left : (p.attach c).slots.count none + 1 = p.slots.count none := by
            rw [seated]
            exact count_seat (Nat.one_le_iff_ne_zero.mpr free)
          have others : ∀ g ∈ fingers, ¬ (p.attach c).isDown g := by
            intro g member down
            rcases isDown_attach.mp down with rfl | before
            · exact fresh member
            · exact up g (List.mem_cons_of_mem _ member) before
          have enough : fingers.length ≤ (p.attach c).slots.count none := by
            rw [List.length_cons] at room
            omega
          obtain ⟨q, offered, stay, slots, kept, landed⟩ :=
            ih here apart (Nat.succ.inj counts) others enough
          refine ⟨q, ?_, ?_, ?_, ?_, ?_⟩
          · rw [List.zipWith_cons_cons, device.offer_cons_accepted accepted, offered]
          · rw [List.append_assoc, Nat.add_right_comm] at stay
            exact stay
          · rw [slots, seated, ← seat_cons]
          · exact fun d member => kept d (Finger.mem_insertBy.mpr (.inr member))
          · intro landing member
            rcases List.mem_cons.mp member with rfl | later
            · refine ⟨c, kept c (Finger.mem_insertBy.mpr (.inl rfl)), rfl, ?_⟩
              rw [← place?_congr visited.resolution, placed]
            · exact landed landing later

theorem Visited.offer_ups (visited : Visited max home arrivals fingers p)
    (distinct : fingers.Nodup) :
    ∃ q, device.offer (fingers.map .up) p = (.accepted, q) ∧
      Visited max home arrivals [] q := by
  induction fingers generalizing p with
  | nil => exact ⟨p, rfl, visited⟩
  | cons f fingers ih =>
      obtain ⟨once, apart⟩ := List.nodup_cons.mp distinct
      obtain ⟨q, accepted, left⟩ := visited.lift once
      obtain ⟨t, offered, gone⟩ := ih left apart
      exact ⟨t, by rw [List.map_cons, device.offer_cons_accepted accepted, offered], gone⟩

/-- Fingers have landed where their spots are on the panel, and all else is as it was. -/
structure Landed (before : Panel) (fingers : List Finger) (spots : List Position) (after : Panel) :
    Prop where
  pressed : device.offer (List.zipWith .down fingers spots) before = (.accepted, after)
  others : after.contacts.filter (fun c => c.finger ∉ fingers) = before.contacts
  landed : ∀ landing ∈ fingers.zip spots,
    ∃ c, after.contact? landing.1 = some c ∧ before.place? landing.2 = some c.point
  slots : after.slots = seat before.slots fingers
  lastTrackingId : after.lastTrackingId = before.lastTrackingId + fingers.length

theorem Sound.offer_downs (sound : p.Sound max) (distinct : fingers.Nodup)
    (counts : fingers.length = spots.length) (up : ∀ f ∈ fingers, ¬ p.isDown f)
    (room : fingers.length ≤ p.slots.count none) :
    ∃ q, Visited max p fingers.length fingers q ∧ Landed p fingers spots q := by
  obtain ⟨q, offered, visited, slots, -, landed⟩ :=
    sound.visited.offer_downs distinct counts up room
  rw [Nat.zero_add, List.nil_append] at visited
  refine ⟨q, visited, offered, visited.contacts, ?_, slots, visited.lastTrackingId⟩
  intro landing member
  obtain ⟨c, present, same, placed⟩ := landed landing member
  exact ⟨c, same ▸ visited.sound.ordered.find?_eq_some present, placed⟩

def clear (p : Panel) (fingers : List Finger) : Nat := fingers.findIdx p.isDown

def landing (p : Panel) (fingers : List Finger) : Nat := min (p.clear fingers) (p.slots.count none)

def refusal (p : Panel) (fingers : List Finger) (f : Finger) : Refusal :=
  if p.clear fingers < fingers.length ∧ p.clear fingers ≤ p.slots.count none then .alreadyDown f
  else .noFreeSlot p.slots.length

def Admits (p : Panel) (fingers : List Finger) : Prop :=
  p.clear fingers = fingers.length ∧ fingers.length ≤ p.slots.count none

theorem clear_le (p : Panel) (fingers : List Finger) : p.clear fingers ≤ fingers.length :=
  List.findIdx_le_length

theorem up_of_lt_clear {k : Nat} (inside : k < fingers.length) (before : k < p.clear fingers) :
    ¬ p.isDown fingers[k] := by
  simpa using List.not_of_lt_findIdx before

theorem down_of_clear (inside : p.clear fingers < fingers.length) :
    p.isDown fingers[p.clear fingers] :=
  List.findIdx_getElem

theorem up_of_admits (admitted : p.Admits fingers) : ∀ f ∈ fingers, ¬ p.isDown f := by
  intro f member
  simpa using List.findIdx_eq_length.mp admitted.1 f member

theorem landing_lt (closed : ¬ p.Admits fingers) : p.landing fingers < fingers.length := by
  have bound := p.clear_le fingers
  rw [Admits] at closed
  rw [landing]
  omega

theorem zipWith_split {α β γ : Type} {touch : α → β → γ} {left : List α}
    {right : List β} {k : Nat} {a : α} {b : β} (first : left[k]? = some a)
    (second : right[k]? = some b) :
    List.zipWith touch left right =
      List.zipWith touch (left.take k) (right.take k) ++
        touch a b :: List.zipWith touch (left.drop (k + 1)) (right.drop (k + 1)) := by
  have both : (List.zipWith touch left right)[k]? = some (touch a b) :=
    List.getElem?_zipWith_eq_some.mpr ⟨a, b, first, second, rfl⟩
  obtain ⟨inside, here⟩ := List.getElem?_eq_some_iff.mp both
  rw [← List.take_zipWith, ← List.drop_zipWith, ← here, List.getElem_cons_drop,
    List.take_append_drop]

/-- Fingers that are not admitted land up to the first that is refused. That finger is in contact
already, or there is no slot for it. -/
theorem Sound.offer_refused (sound : p.Sound max) (distinct : fingers.Nodup)
    (counts : fingers.length = spots.length) (closed : ¬ p.Admits fingers) :
    ∃ f spot q, fingers[p.landing fingers]? = some f ∧ spots[p.landing fingers]? = some spot ∧
      Landed p (fingers.take (p.landing fingers)) (spots.take (p.landing fingers)) q ∧
      device.touch (.down f spot) q = (.rejected (p.refusal fingers f), q) := by
  have early : p.landing fingers < fingers.length := landing_lt closed
  have late : p.landing fingers < spots.length := counts ▸ early
  have front : (fingers.take (p.landing fingers)).length = p.landing fingers :=
    List.length_take_of_le (Nat.le_of_lt early)
  have ends : (spots.take (p.landing fingers)).length = p.landing fingers :=
    List.length_take_of_le (Nat.le_of_lt late)
  have room : p.landing fingers ≤ p.slots.count none := Nat.min_le_right _ _
  have aloft : ∀ f ∈ fingers.take (p.landing fingers), ¬ p.isDown f := by
    intro f member
    obtain ⟨k, inside, rfl⟩ := List.mem_take_iff_getElem.mp member
    have before : p.landing fingers ≤ p.clear fingers := Nat.min_le_left _ _
    exact up_of_lt_clear (by omega) (by omega)
  have parted : (fingers.take (p.landing fingers) ++ [fingers[p.landing fingers]]).Nodup := by
    rw [List.take_append_getElem early]
    exact distinct.sublist (List.take_sublist _ _)
  obtain ⟨apart, -, fresh⟩ := List.nodup_append.mp parted
  obtain ⟨q, visited, landed⟩ :=
    sound.offer_downs apart (front.trans ends.symm) aloft (front.symm ▸ room)
  refine ⟨_, _, q, List.getElem?_eq_getElem early, List.getElem?_eq_getElem late, landed, ?_⟩
  have left : q.slots.count none + p.landing fingers = p.slots.count none := by
    have counted := count_seat (front.symm ▸ room : _ ≤ p.slots.count none)
    rwa [← landed.slots, front] at counted
  rw [refusal, sound.slots_length]
  split
  -- the finger in contact comes first, while slots last
  next taken =>
    have here : p.landing fingers = p.clear fingers := Nat.min_eq_left taken.2
    have down : p.isDown fingers[p.landing fingers] := by
      simpa only [here] using down_of_clear taken.1
    exact visited.press_taken down _
  -- the slots are used up before any finger in contact
  next short =>
    have bound := p.clear_le fingers
    have here : p.landing fingers = p.slots.count none := by
      rw [landing] at early ⊢
      omega
    have up : ¬ p.isDown fingers[p.landing fingers] := up_of_lt_clear early (by omega)
    have foreign : fingers[p.landing fingers] ∉ fingers.take (p.landing fingers) := fun member =>
      fresh _ member _ (List.mem_singleton_self _) rfl
    exact visited.press_crowded up foreign (by omega) _

end Panel

end TouchGesture
