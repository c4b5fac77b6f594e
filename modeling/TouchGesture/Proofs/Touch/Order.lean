import TouchGesture.Touch.Event

/-! Lists kept in the strict order of their fingers. -/

namespace TouchGesture.Finger

variable {α : Type} {finger : α → Finger} {a b : α} {l : List α}

def Ordered (finger : α → Finger) (l : List α) : Prop :=
  l.Pairwise fun a b => (finger a).index < (finger b).index

theorem insertBy_perm (finger : α → Finger) (a : α) (l : List α) :
    (insertBy finger a l).Perm (a :: l) := by
  induction l with
  | nil => exact .refl _
  | cons b rest ih =>
      rw [insertBy]
      split
      · exact .refl _
      · exact (ih.cons b).trans (.swap a b rest)

theorem mem_insertBy {c : α} : c ∈ insertBy finger a l ↔ c = a ∨ c ∈ l := by
  rw [(insertBy_perm finger a l).mem_iff, List.mem_cons]

theorem filter_insertBy {keep : α → Bool} (l : List α) (dropped : keep a = false) :
    (insertBy finger a l).filter keep = l.filter keep := by
  induction l with
  | nil => simp [insertBy, dropped]
  | cons b rest ih =>
      rw [insertBy]
      split
      · simp [dropped]
      · rw [List.filter_cons, ih, List.filter_cons]

theorem map_insertBy (finger : α → Finger) (a : α) (l : List α) :
    (insertBy finger a l).map finger = insertBy id (finger a) (l.map finger) := by
  induction l with
  | nil => rfl
  | cons b rest ih =>
      rw [insertBy, List.map_cons, insertBy]
      simp only [id]
      split
      · rfl
      · rw [List.map_cons, ih]

namespace Ordered

theorem insertBy (ordered : Ordered finger l) (fresh : ∀ b ∈ l, finger b ≠ finger a) :
    Ordered finger (Finger.insertBy finger a l) := by
  induction l with
  | nil => exact List.pairwise_singleton _ _
  | cons b rest ih =>
      have ⟨below, tail⟩ := List.pairwise_cons.mp ordered
      rw [Finger.insertBy]
      split
      next first =>
        refine List.pairwise_cons.mpr ⟨?_, ordered⟩
        intro c member
        rcases List.mem_cons.mp member with rfl | later
        · exact first
        · exact UInt32.lt_trans first (below c later)
      next last =>
        have after : (finger b).index < (finger a).index := by
          have differ : (finger b).index ≠ (finger a).index := by
            intro same
            exact fresh b List.mem_cons_self (congrArg Finger.mk same)
          exact UInt32.lt_of_le_of_ne (UInt32.not_lt.mp last) differ
        have apart : ∀ c ∈ rest, finger c ≠ finger a := fun c member =>
          fresh c (List.mem_cons_of_mem b member)
        refine List.pairwise_cons.mpr ⟨?_, ih tail apart⟩
        intro c member
        rcases mem_insertBy.mp member with rfl | old
        · exact after
        · exact below c old

theorem eq_of_finger (ordered : Ordered finger l) (first : a ∈ l) (second : b ∈ l)
    (same : finger a = finger b) : a = b := by
  induction l with
  | nil => cases first
  | cons c rest ih =>
      have ⟨below, tail⟩ := List.pairwise_cons.mp ordered
      rcases List.mem_cons.mp first with rfl | left
      · rcases List.mem_cons.mp second with rfl | right
        · rfl
        · exact absurd (below b right) (by rw [same]; exact UInt32.lt_irrefl _)
      · rcases List.mem_cons.mp second with rfl | right
        · exact absurd (below a left) (by rw [same]; exact UInt32.lt_irrefl _)
        · exact ih tail left right

theorem nodup (ordered : Ordered finger l) : (l.map finger).Nodup := by
  rw [List.Nodup, List.pairwise_map]
  refine ordered.imp fun {a b} below same => ?_
  rw [same] at below
  exact UInt32.lt_irrefl _ below

theorem length_filter_ne (ordered : Ordered finger l) (member : a ∈ l) :
    (l.filter fun b => finger b ≠ finger a).length + 1 = l.length := by
  have once : l.countP (fun b => finger b = finger a) = 1 := by
    have counted := ordered.nodup.count (a := finger a)
    rw [if_pos (List.mem_map_of_mem member), List.count, List.countP_map] at counted
    exact counted
  have parts := l.length_eq_countP_add_countP fun b => finger b = finger a
  rw [once, Nat.add_comm] at parts
  simpa [List.countP_eq_length_filter] using parts.symm

theorem find?_eq_some (ordered : Ordered finger l) (member : a ∈ l) :
    l.find? (fun b => finger b = finger a) = some a := by
  cases found : l.find? fun b => finger b = finger a with
  | none =>
      have missing := List.find?_eq_none.mp found a member
      simp at missing
  | some b =>
      have same : finger b = finger a := by simpa using List.find?_some found
      rw [ordered.eq_of_finger (List.mem_of_find?_eq_some found) member same]

end Ordered

end TouchGesture.Finger
