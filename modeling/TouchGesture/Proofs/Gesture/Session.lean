import TouchGesture.Proofs.Gesture.Operation

/-! Sessions: a panel that nobody touches but through the operations of an engine. Between them it
is either at rest or full of fingers that nobody will lift. -/

namespace TouchGesture

namespace Finger

theorem take_first {n : UInt32} {k : Nat} (few : k ≤ n.toNat) :
    (first n).take k = (List.range k).map fun i => ⟨UInt32.ofNat i⟩ := by
  rw [first, ← List.map_take, List.take_range, Nat.min_eq_left few]

theorem first_eq_cons {n : UInt32} (positive : n ≠ 0) : ∃ rest, first n = ⟨0⟩ :: rest := by
  have counted : n.toNat ≠ 0 := fun zero => positive (UInt32.toNat_inj.mp zero)
  obtain ⟨k, count⟩ := Nat.exists_eq_succ_of_ne_zero counted
  exact ⟨_, by rw [first, count, List.range_succ_eq_map, List.map_cons]; rfl⟩

end Finger

namespace Panel

structure Idle (max : Nat) (p : Panel) : Prop where
  contacts : p.contacts = []
  slots : p.slots = List.replicate max none

/-- The first fingers are in contact, each in the slot of its own number, and no slot is left. -/
structure Jammed (max : Nat) (p : Panel) : Prop where
  contacts : p.contacts.map (fun c => (c.finger, c.slot)) =
    (List.range max).map fun i => (⟨UInt32.ofNat i⟩, i)
  slots : p.slots = (List.range max).map fun i => some ⟨UInt32.ofNat i⟩

variable {max : Nat} {p q : Panel} {fingers : List Finger} {spots : List Position}
  {ending : Except Stop Unit}

theorem idle_ofSlots (max : Nat) : (ofSlots max).Idle max := ⟨rfl, rfl⟩

namespace Idle

theorem not_jammed (idle : p.Idle max) (positive : 1 ≤ max) : ¬ p.Jammed max := by
  intro jammed
  have lengths := congrArg List.length jammed.contacts
  rw [idle.contacts, List.map_nil, List.length_nil, List.length_map, List.length_range] at lengths
  omega

theorem not_isDown (idle : p.Idle max) (f : Finger) : ¬ p.isDown f := by
  rw [isDown_iff, idle.contacts]
  rintro ⟨c, member, -⟩
  cases member

theorem free (idle : p.Idle max) : p.slots.count none = max := by
  rw [idle.slots, List.count_replicate_self]

theorem clear_eq (idle : p.Idle max) (fingers : List Finger) : p.clear fingers = fingers.length :=
  List.findIdx_eq_length.mpr fun f _ => Bool.eq_false_iff.mpr (idle.not_isDown f)

theorem admits_iff (idle : p.Idle max) : p.Admits fingers ↔ fingers.length ≤ max := by
  rw [Admits, idle.clear_eq, idle.free]
  exact and_iff_right rfl

theorem landing_eq (idle : p.Idle max) (many : max < fingers.length) : p.landing fingers = max := by
  rw [landing, idle.clear_eq, idle.free, Nat.min_eq_right (Nat.le_of_lt many)]

theorem refusal_eq (idle : p.Idle max) (f : Finger) : p.refusal fingers f = .noFreeSlot max := by
  have clear :
      ¬ (p.clear fingers < fingers.length ∧ p.clear fingers ≤ p.slots.count none) := by
    rw [idle.clear_eq]
    omega
  rw [refusal, if_neg clear, idle.slots, List.length_replicate]

theorem restored (idle : p.Idle max) (restored : p.Restored fingers q) : q.Idle max :=
  ⟨restored.contacts.trans idle.contacts, restored.slots.trans idle.slots⟩

end Idle

theorem Sound.fingers_eq (sound : p.Sound max) {fingers : List Finger}
    (ordered : Finger.Ordered id fingers) (slots : p.slots = fingers.map some) :
    p.contacts.map Contact.finger = fingers := by
  have perm := sound.fingers_perm
  rw [slots, List.filterMap_map, Function.id_comp, List.filterMap_some] at perm
  have sorted : (p.contacts.map Contact.finger).Pairwise fun f g => f.index < g.index := by
    rw [List.pairwise_map]
    exact sound.ordered
  refine perm.eq_of_pairwise ?_ sorted ordered
  intro f g _ _ below above
  exact absurd (UInt32.lt_trans below above) (UInt32.lt_irrefl _)

theorem Idle.jammed (idle : p.Idle max) (sound : q.Sound max) {n : UInt32} (many : max < n.toNat)
    (landed : p.Landed ((Finger.first n).take max) spots q) : q.Jammed max := by
  have names := Finger.take_first (Nat.le_of_lt many)
  have seated : q.slots = ((Finger.first n).take max).map some := by
    have count : ((Finger.first n).take max).length = max := by
      rw [names, List.length_map, List.length_range]
    have filled := seat_replicate ((Finger.first n).take max)
    rw [count] at filled
    rw [landed.slots, idle.slots, filled]
  have fingers := sound.fingers_eq ((Finger.ordered_first n).sublist (List.take_sublist _ _)) seated
  rw [names] at seated fingers
  rw [List.map_map] at seated
  refine ⟨?_, seated⟩
  -- the slots were filled in the order of the fingers, so a contact's slot tells its finger
  have number : ∀ c ∈ q.contacts, c.finger.index.toNat = c.slot := by
    intro c member
    have here := sound.held c member
    rw [seated, List.getElem?_map, Option.map_eq_some_iff] at here
    obtain ⟨i, inside, same⟩ := here
    obtain ⟨below, rfl⟩ := List.getElem?_eq_some_iff.mp inside
    rw [List.length_range] at below
    have size : n.toNat < UInt32.size := n.toNat_lt_size
    rw [← Option.some.inj same, List.getElem_range]
    exact UInt32.toNat_ofNat_of_lt (by omega)
  have pairs : q.contacts.map (fun c => (c.finger, c.slot)) =
      (q.contacts.map Contact.finger).map fun f => (f, f.index.toNat) := by
    rw [List.map_map]
    exact List.map_congr_left fun c member => Prod.ext rfl (number c member).symm
  rw [pairs, fingers, List.map_map]
  refine List.map_congr_left fun i member => Prod.ext rfl ?_
  have below := List.mem_range.mp member
  have size : n.toNat < UInt32.size := n.toNat_lt_size
  exact UInt32.toNat_ofNat_of_lt (by omega)

/-- A panel at rest is at rest again after a visit, unless there are more fingers than slots. -/
theorem Visit.of_idle {n : UInt32} (visit : Visit p (Finger.first n) spots ending q)
    (idle : p.Idle max) (sound : q.Sound max) :
    (n.toNat ≤ max ∧ q.Idle max) ∨
    (max < n.toNat ∧ q.Jammed max ∧ ending = .error (.fault (.device (.noFreeSlot max)))) := by
  have count := Finger.length_first n
  cases visit with
  | completed admitted restored =>
      exact .inl ⟨count ▸ idle.admits_iff.mp admitted, idle.restored restored⟩
  | cancelled admitted restored =>
      exact .inl ⟨count ▸ idle.admits_iff.mp admitted, idle.restored restored⟩
  | refused closed here landed =>
      rw [idle.admits_iff, Nat.not_le] at closed
      rw [idle.landing_eq closed] at landed
      rw [idle.refusal_eq]
      have many : max < n.toNat := count ▸ closed
      exact .inr ⟨many, idle.jammed sound many landed, rfl⟩

theorem Jammed.isDown_zero (jammed : p.Jammed max) (positive : 1 ≤ max) : p.isDown ⟨0⟩ := by
  have entry : ((⟨0⟩, 0) : Finger × Nat) ∈ (List.range max).map fun i =>
      (⟨UInt32.ofNat i⟩, i) :=
    List.mem_map.mpr ⟨0, List.mem_range.mpr positive, rfl⟩
  rw [← jammed.contacts] at entry
  obtain ⟨c, member, same⟩ := List.mem_map.mp entry
  exact isDown_iff.mpr ⟨c, member, congrArg Prod.fst same⟩

theorem Visit.of_isDown {f : Finger} {rest : List Finger}
    (visit : Visit p (f :: rest) spots ending q) (down : p.isDown f) :
    q = p ∧ ending = .error (.fault (.device (.alreadyDown f))) := by
  have first : p.clear (f :: rest) = 0 := by
    rw [clear, List.findIdx_cons, down]
    rfl
  have barred : ¬ p.Admits (f :: rest) := by
    rintro ⟨all, -⟩
    rw [first] at all
    cases all
  cases visit with
  | completed admitted _ => exact absurd admitted barred
  | cancelled admitted _ => exact absurd admitted barred
  | refused _ here landed =>
      have place : p.landing (f :: rest) = 0 := by
        rw [landing, first, Nat.zero_min]
      rw [place] at here landed
      obtain rfl : f = _ := Option.some.inj here
      have same : p = q := congrArg Prod.snd landed.pressed
      rw [refusal, if_pos (by rw [first]; exact ⟨Nat.zero_lt_succ _, Nat.zero_le _⟩)]
      exact ⟨same.symm, rfl⟩

end Panel

/-- The panels that come about from a fresh one of `max` slots, with or without a resolution that
has a place for every point, by operations alone. Each may have settings, a time source and a token
of its own. -/
inductive Session (max : Nat) : Panel → Prop
  | fresh : Session max (Panel.ofSlots max)
  | screen (r : Resolution) : r.Bounded → Session max ((Panel.ofSlots max).withResolution r)
  | perform {p : Panel} {τ : Type} (settings : Settings) (sleep : Span → τ → τ)
      (cancelled : τ → Bool × τ) (c : τ) (op : Operation) : Session max p →
      Session max ((op.perform ⟨Panel.device.rig sleep cancelled, settings⟩).on (p, c)).2.1

namespace Session

open Panel

variable {max : Nat} {p : Panel}

theorem reachable (session : Session max p) : p.Reachable max := by
  induction session with
  | fresh => exact .fresh
  | screen r bounded => exact .resolve r bounded .fresh
  | perform settings sleep cancelled c op _ ih =>
      exact op.perform_reachable sleep cancelled settings c ih

section Steps

variable {τ : Type} (settings : Settings) (sleep : Span → τ → τ)
  (cancelled : τ → Bool × τ) (c : τ)
  (op : Operation)

theorem perform_idle (session : Session max p) (idle : p.Idle max) (positive : 1 ≤ max) :
    ∃ ending q c',
      (op.perform ⟨device.rig sleep cancelled, settings⟩).on (p, c) = (ending, q, c') ∧
      (q.Idle max ∨ q.Jammed max) ∧
      (q.Jammed max ↔ op.Valid settings ∧ (cancelled c).1 = false ∧ max < op.fingers) ∧
      (q.Jammed max → ending = .error (.fault (.device (.noFreeSlot max)))) := by
  have resting : ¬ p.Jammed max := idle.not_jammed positive
  have reached := (session.perform settings sleep cancelled c op).reachable
  obtain ⟨ending, q, c', run, served⟩ :=
    op.perform_served sleep cancelled settings c session.reachable.sound
  rw [run] at reached
  refine ⟨ending, q, c', run, ?_⟩
  cases served with
  | invalid fault invalid => exact ⟨.inl idle, by simp [resting, invalid], resting.elim⟩
  | withheld _ raised => exact ⟨.inl idle, by simp [resting, raised], resting.elim⟩
  | visited valid calm _ count visit =>
      rw [← count]
      rcases visit.of_idle idle reached.sound with ⟨few, rest⟩ | ⟨many, jammed, refused⟩
      · have still := rest.not_jammed positive
        refine ⟨.inl rest, ⟨still.elim, fun ⟨_, _, many⟩ => ?_⟩, still.elim⟩
        omega
      · exact ⟨.inr jammed, ⟨fun _ => ⟨valid, calm, many⟩, fun _ => jammed⟩,
          fun _ => refused⟩

theorem perform_jammed (session : Session max p) (jammed : p.Jammed max) (positive : 1 ≤ max) :
    ∃ ending c',
      (op.perform ⟨device.rig sleep cancelled, settings⟩).on (p, c) = (ending, p, c') ∧
      (op.Valid settings → (cancelled c).1 = false →
        ending = .error (.fault (.device (.alreadyDown ⟨0⟩)))) := by
  obtain ⟨ending, q, c', run, served⟩ :=
    op.perform_served sleep cancelled settings c session.reachable.sound
  cases served with
  | invalid fault invalid => exact ⟨_, c', run, fun valid => absurd valid invalid⟩
  | withheld _ raised => exact ⟨_, c', run, fun _ calm => by simp [raised] at calm⟩
  | visited _ _ fingers _ visit =>
      obtain ⟨rest, zero⟩ := Finger.first_eq_cons fingers
      rw [zero] at visit
      obtain ⟨rfl, refused⟩ := visit.of_isDown (jammed.isDown_zero positive)
      exact ⟨ending, c', run, fun _ _ => refused⟩

end Steps

theorem rests (session : Session max p) (positive : 1 ≤ max) : p.Idle max ∨ p.Jammed max := by
  induction session with
  | fresh => exact .inl (idle_ofSlots max)
  | screen r _ => exact .inl ⟨rfl, rfl⟩
  | perform settings sleep cancelled c op session ih =>
      rcases ih with idle | jammed
      · obtain ⟨ending, q, c', run, rest, -⟩ :=
          session.perform_idle settings sleep cancelled c op idle positive
        rw [run]
        exact rest
      · obtain ⟨ending, c', run, -⟩ :=
          session.perform_jammed settings sleep cancelled c op jammed positive
        rw [run]
        exact .inr jammed

/-- A panel of a session is at rest or jammed, and not both. An operation jams a panel at rest
exactly if it does not refuse its arguments, the token is not raised, and it has more fingers than
the panel has slots. It is told so. Whatever is then asked changes nothing, and where the arguments
and the token allow it, finger 0 is refused. -/
structure Rests (max : Nat) (p : Panel) : Prop where
  known : p.Idle max ∨ p.Jammed max
  apart : ¬ (p.Idle max ∧ p.Jammed max)
  valid : ∀ {τ : Type} (settings : Settings) (sleep : Span → τ → τ)
    (cancelled : τ → Bool × τ) (c : τ)
    (op : Operation), op.Valid settings ↔
      ∀ fault, ((op.perform ⟨device.rig sleep cancelled, settings⟩).on (p, c)).1 ≠
        .error (.fault (.invalidArgument fault))
  from_idle : p.Idle max → ∀ {τ : Type} (settings : Settings) (sleep : Span → τ → τ)
    (cancelled : τ → Bool × τ) (c : τ) (op : Operation),
    ∃ ending q c',
      (op.perform ⟨device.rig sleep cancelled, settings⟩).on (p, c) = (ending, q, c') ∧
      (q.Idle max ∨ q.Jammed max) ∧
      (q.Jammed max ↔ op.Valid settings ∧ (cancelled c).1 = false ∧ max < op.fingers) ∧
      (q.Jammed max → ending = .error (.fault (.device (.noFreeSlot max))))
  from_jammed : p.Jammed max → ∀ {τ : Type} (settings : Settings) (sleep : Span → τ → τ)
    (cancelled : τ → Bool × τ) (c : τ) (op : Operation),
    ∃ ending c',
      (op.perform ⟨device.rig sleep cancelled, settings⟩).on (p, c) = (ending, p, c') ∧
      (op.Valid settings → (cancelled c).1 = false →
        ending = .error (.fault (.device (.alreadyDown ⟨0⟩))))

theorem session_rests (positive : 1 ≤ max) (session : Session max p) : Rests max p where
  known := session.rests positive
  apart both := both.1.not_jammed positive both.2
  valid settings sleep cancelled c op :=
    op.valid_iff sleep cancelled settings c session.reachable.sound
  from_idle idle _ settings sleep cancelled c op :=
    session.perform_idle settings sleep cancelled c op idle positive
  from_jammed jammed _ settings sleep cancelled c op :=
    session.perform_jammed settings sleep cancelled c op jammed positive

/-- Three fingers on two slots. -/
theorem session_rests_crowded :
    ∃ p, Session 2 p ∧ p.slots = [some ⟨0⟩, some ⟨1⟩] ∧ Rests 2 p := by
  have session := (@Session.fresh 2).perform {} (fun _ c => c) (Prod.mk false) ()
    (.paths [⟨0, 0⟩, ⟨1, 0⟩, ⟨2, 0⟩] [⟨0, 5⟩, ⟨1, 5⟩, ⟨2, 5⟩])
  exact ⟨_, session, by decide +kernel, session_rests (by decide) session⟩

end Session

end TouchGesture
