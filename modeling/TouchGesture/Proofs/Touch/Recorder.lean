import Mathlib.Data.List.Nodup
import TouchGesture.Proofs.Touch.Order
import TouchGesture.Touch.Recorder

/-! What a touch can do to a recorder: it is counted, and it is accepted, refused for the state of
its finger, or refused because its number is up. -/

namespace TouchGesture

namespace Touch

variable {α : Type}

def settle (e : Touch α) (down : List Finger) : List Finger :=
  match e with
  | .down f _ => Finger.insertBy id f down
  | .move .. => down
  | .up f => down.filter (· ≠ f)

def Suits (e : Touch α) (down : List Finger) : Prop :=
  match e with
  | .down f _ => f ∉ down
  | .move f _ | .up f => f ∈ down

def misuse : Touch α → Refusal
  | .down f _ => .alreadyDown f
  | .move f _ | .up f => .notDown f

theorem mem_of_mem_settle {e : Touch α} {down : List Finger} {f : Finger}
    (member : f ∈ e.settle down) :
    f = e.finger ∨ f ∈ down := by
  cases e with
  | down g point => exact Finger.mem_insertBy.mp member
  | move g point => exact .inr member
  | up g => exact .inr (List.mem_filter.mp member).1

end Touch

namespace Recorder

def counted (r : Recorder) : Recorder := { r with attempts := r.attempts + 1 }

def record (r : Recorder) (e : TouchEvent) : Recorder :=
  { r.counted with down := e.settle r.down, events := r.events.push e }

def Due (r : Recorder) : Prop := r.failAt = some (r.attempts + 1)

/-- In machine words the same touch is refused, as long as they hold the counts. -/
theorem due_iff_toUInt64 {r : Recorder} (few : r.attempts + 1 < UInt64.size)
    (fits : ∀ n, r.failAt = some n → n < UInt64.size) :
    r.Due ↔ r.failAt.map Nat.toUInt64 = some (r.attempts.toUInt64 + 1) := by
  have next : (r.attempts + 1).toUInt64 = r.attempts.toUInt64 + 1 := UInt64.ofNat_add r.attempts 1
  rw [Due, ← next]
  cases set : r.failAt with
  | none => simp
  | some n =>
      rw [Option.map_some, Option.some.injEq, Option.some.injEq]
      refine ⟨congrArg Nat.toUInt64, fun same => ?_⟩
      calc
        n = n.toUInt64.toNat := (UInt64.toNat_ofNat_of_lt (fits n set)).symm
        _ = (r.attempts + 1).toUInt64.toNat := congrArg UInt64.toNat same
        _ = r.attempts + 1 := UInt64.toNat_ofNat_of_lt few

inductive Outcome (r : Recorder) (e : TouchEvent) : Verdict × Recorder → Prop
  | injected : r.Due → Outcome r e (.rejected (.injected (r.attempts + 1)), r.counted)
  | misused : ¬ r.Due → ¬ e.Suits r.down → Outcome r e (.rejected e.misuse, r.counted)
  | recorded : ¬ r.Due → e.Suits r.down → Outcome r e (.accepted, r.record e)

section Answers

variable {r t : Recorder} {e : TouchEvent} {verdict : Verdict}

theorem touch_of_due (due : r.Due) (e : TouchEvent) :
    touch e r = (.rejected (.injected (r.attempts + 1)), r.counted) :=
  if_pos due

theorem touch_of_suits (spared : ¬ r.Due) (suits : e.Suits r.down) :
    touch e r = (.accepted, r.record e) := by
  have next : ¬ r.failAt = some (r.attempts + 1) := spared
  cases e <;> simp_all [touch, Touch.Suits, record, counted, Touch.settle]

theorem touch_of_misuse (spared : ¬ r.Due) (unsuited : ¬ e.Suits r.down) :
    touch e r = (.rejected e.misuse, r.counted) := by
  have next : ¬ r.failAt = some (r.attempts + 1) := spared
  cases e <;> simp_all [touch, Touch.Suits, counted, Touch.misuse]

theorem touch_outcome (r : Recorder) (e : TouchEvent) : r.Outcome e (touch e r) := by
  by_cases due : r.Due
  · exact touch_of_due due e ▸ .injected due
  · by_cases suits : e.Suits r.down
    · exact touch_of_suits due suits ▸ .recorded due suits
    · exact touch_of_misuse due suits ▸ .misused due suits

theorem touch_failAt (r : Recorder) (e : TouchEvent) : (touch e r).2.failAt = r.failAt := by
  have outcome := r.touch_outcome e
  generalize touch e r = result at outcome ⊢
  cases outcome <;> rfl

theorem attempts_touch (r : Recorder) (e : TouchEvent) :
    (device.touch e r).2.attempts = r.attempts + 1 := by
  have outcome : r.Outcome e (device.touch e r) := r.touch_outcome e
  generalize device.touch e r = result at outcome ⊢
  cases outcome <;> rfl

theorem mem_down_touch {r : Recorder} {e : TouchEvent} {f : Finger}
    (member : f ∈ (touch e r).2.down) :
    f = e.finger ∨ f ∈ r.down := by
  have outcome := r.touch_outcome e
  generalize touch e r = result at outcome member
  cases outcome with
  | injected _ => exact .inr member
  | misused _ _ => exact .inr member
  | recorded _ _ => exact Touch.mem_of_mem_settle member

theorem eq_record_of_accepted (accepted : device.touch e r = (.accepted, t)) : t = r.record e := by
  have outcome : r.Outcome e (device.touch e r) := r.touch_outcome e
  rw [accepted] at outcome
  cases outcome with
  | recorded _ _ => rfl

/-- A touch that suits is refused only because its number is up. -/
theorem due_of_refused (suits : e.Suits r.down) (answer : device.touch e r = (verdict, t))
    (refused : verdict ≠ .accepted) :
    r.Due ∧ verdict = .rejected (.injected (r.attempts + 1)) ∧ t = r.counted := by
  have outcome : r.Outcome e (device.touch e r) := r.touch_outcome e
  rw [answer] at outcome
  cases outcome with
  | injected due => exact ⟨due, rfl, rfl⟩
  | misused _ unsuited => exact absurd suits unsuited
  | recorded _ _ => exact absurd rfl refused

theorem device_ne_crashed (e : TouchEvent) (r : Recorder) : (device.touch e r).1 ≠ .crashed := by
  have outcome : r.Outcome e (device.touch e r) := r.touch_outcome e
  generalize device.touch e r = result at outcome ⊢
  cases outcome <;> exact nofun

def Past (r : Recorder) : Prop := ∀ n, r.failAt = some n → n ≤ r.attempts

theorem Due.not_past (due : r.Due) : ¬ r.Past := by
  intro past
  have late := past _ due
  omega

theorem Due.past_counted (due : r.Due) : r.counted.Past := by
  intro n same
  have next : r.failAt = some n := same
  rw [due] at next
  exact Nat.le_of_eq (Option.some.inj next).symm

theorem Past.record (past : r.Past) (e : TouchEvent) : (r.record e).Past := fun n same =>
  Nat.le_succ_of_le (past n same)

def Spares (n : Nat) (r : Recorder) : Prop :=
  ∀ m, r.failAt = some m → m ≤ r.attempts ∨ r.attempts + n < m

section Spared

variable {n : Nat}

theorem Past.spares (past : r.Past) (n : Nat) : r.Spares n := fun m number => .inl (past m number)

theorem Spares.not_due (spared : r.Spares (n + 1)) : ¬ r.Due := by
  intro due
  have number := spared _ due
  omega

theorem Spares.touch (spared : r.Spares (n + 1)) (e : TouchEvent) :
    (device.touch e r).2.Spares n := by
  intro m told
  have number := spared m ((touch_failAt r e).symm.trans told)
  rw [attempts_touch]
  omega

end Spared

end Answers

/-- The fingers that are not named are those of `others`, in their order, and of the named ones
exactly the guests are down. -/
structure Holding (names others guests : List Finger) (r : Recorder) : Prop where
  others : r.down.filter (· ∉ names) = others
  guests : ∀ f ∈ names, f ∈ r.down ↔ f ∈ guests

section Guests

variable {r : Recorder} {names others guests stay : List Finger} {f : Finger}

theorem holding_of_absent (absent : ∀ f ∈ names, f ∉ r.down) :
    r.Holding names r.down [] where
  others := by
    rw [List.filter_eq_self]
    intro f down
    simpa using fun named => absent f named down
  guests f named := by simp [absent f named]

theorem Holding.down_eq (holding : r.Holding names others []) :
    r.down = others := by
  rw [← holding.others, eq_comm, List.filter_eq_self]
  intro f down
  have foreign : f ∉ names := fun named => by simpa using (holding.guests f named).mp down
  simpa using foreign

namespace Holding

theorem counted (holding : r.Holding names others guests) : r.counted.Holding names others guests :=
  ⟨holding.others, holding.guests⟩

theorem press (holding : r.Holding names others guests) (named : f ∈ names) (spot : Position) :
    (r.record (.down f spot)).Holding names others (guests ++ [f]) where
  others := by
    rw [← holding.others]
    exact Finger.filter_insertBy _ (by simpa using named)
  guests g member := by
    simp only [record, Touch.settle, Finger.mem_insertBy, holding.guests g member, List.mem_append,
      List.mem_singleton]
    exact or_comm

theorem slide (holding : r.Holding names others guests) (spot : Position) :
    (r.record (.move f spot)).Holding names others guests :=
  ⟨holding.others, holding.guests⟩

theorem lift (holding : r.Holding names others (stay ++ f :: guests)) (named : f ∈ names)
    (distinct : (stay ++ f :: guests).Nodup) :
    (r.record (.up f)).Holding names others (stay ++ guests) where
  others := by
    rw [← holding.others, record, Touch.settle, List.filter_filter]
    refine List.filter_congr fun g _ => ?_
    by_cases same : g = f <;> simp [same, named]
  guests g member := by
    have once : f ∉ stay ++ guests := (List.nodup_middle.mp distinct).notMem
    simp only [record, Touch.settle, List.mem_filter, holding.guests g member, List.mem_append,
      List.mem_cons, decide_eq_true_eq]
    simp only [List.mem_append] at once
    constructor
    · rintro ⟨left | same | right, differ⟩
      · exact .inl left
      · exact absurd same differ
      · exact .inr right
    · intro still
      refine ⟨still.imp_right .inr, ?_⟩
      rintro rfl
      exact once still

end Holding

end Guests

end Recorder

end TouchGesture
