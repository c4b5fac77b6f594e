import TouchGesture.Settings

/-! Settings made from entries, each a name and an integer. -/

namespace TouchGesture.Settings

abbrev Entry := String × Int

namespace Field

theorem ofName?_name (f : Field) : ofName? f.name = some f := by
  cases f <;> decide

theorem name_of_ofName? {s : String} {f : Field} (named : ofName? s = some f) : f.name = s := by
  simpa using List.find?_some named

theorem eq_of_name {f g : Field} (same : f.name = g.name) : f = g := by
  have named := ofName?_name f
  rw [same, ofName?_name g] at named
  exact (Option.some.inj named).symm

theorem size_le (f : Field) : f.size ≤ UInt64.size := by
  cases f <;> decide

end Field

def apply (c : Settings) (e : Entry) : Settings :=
  match Field.ofName? e.1 with
  | some f => c.set f e.2.toNat
  | none => c

def applyAll (c : Settings) (entries : List Entry) : Settings := entries.foldl apply c

/-- Entries that name distinct fields, each with a number in its range. -/
structure Proper (entries : List Entry) : Prop where
  distinct : (entries.map Prod.fst).Nodup
  fitting : ∀ e ∈ entries, ∃ f : Field, f.name = e.1 ∧ 0 ≤ e.2 ∧ e.2 < f.size

/-- Takes entries as a reader does: the first that names no field or one of those `seen`, or that is
out of its range, ends it. -/
def assemble (c : Settings) (seen : List Field) : List Entry → Option Settings
  | [] => some c
  | e :: entries =>
      match Field.ofName? e.1 with
      | none => none
      | some f =>
          if f ∉ seen ∧ 0 ≤ e.2 ∧ e.2 < f.size then
            assemble (c.set f e.2.toNat) (f :: seen) entries
          else none

theorem proper_cons {e : Entry} {entries : List Entry} :
    Proper (e :: entries) ↔
      e.1 ∉ entries.map Prod.fst ∧
      (∃ f : Field, f.name = e.1 ∧ 0 ≤ e.2 ∧ e.2 < f.size) ∧ Proper entries := by
  constructor
  · rintro ⟨distinct, fitting⟩
    have apart := List.nodup_cons.mp distinct
    exact ⟨apart.1, fitting e List.mem_cons_self, apart.2,
      fun e' member => fitting e' (.tail e member)⟩
  · rintro ⟨apart, fits, distinct, fitting⟩
    constructor
    · exact List.nodup_cons.mpr ⟨apart, distinct⟩
    · intro e' member
      rcases List.mem_cons.mp member with rfl | later
      · exact fits
      · exact fitting e' later

theorem assemble_proper {c : Settings} {seen : List Field} {entries : List Entry}
    (proper : Proper entries) (unseen : ∀ f ∈ seen, f.name ∉ entries.map Prod.fst) :
    assemble c seen entries = some (c.applyAll entries) := by
  induction entries generalizing c seen with
  | nil => rfl
  | cons e entries ih =>
      obtain ⟨apart, ⟨f, named, inside⟩, others⟩ := proper_cons.mp proper
      have fresh : f ∉ seen := by
        intro member
        apply unseen f member
        rw [named]
        exact List.mem_cons_self
      have still : ∀ g ∈ f :: seen, g.name ∉ entries.map Prod.fst := by
        intro g member
        rcases List.mem_cons.mp member with rfl | earlier
        · rwa [named]
        · exact fun later => unseen g earlier (List.mem_cons_of_mem e.1 later)
      have applied : c.apply e = c.set f e.2.toNat := by
        simp only [apply, ← named, Field.ofName?_name]
      simp only [assemble, ← named, Field.ofName?_name, fresh, inside, not_false_eq_true,
        and_self, if_true]
      rw [ih others still, ← applied]
      rfl

theorem proper_of_assemble {c c' : Settings} {seen : List Field} {entries : List Entry}
    (taken : assemble c seen entries = some c') :
    Proper entries ∧ ∀ f ∈ seen, f.name ∉ entries.map Prod.fst := by
  induction entries generalizing c seen with
  | nil => exact ⟨⟨List.nodup_nil, nofun⟩, fun _ _ => nofun⟩
  | cons e entries ih =>
      cases found : Field.ofName? e.1 with
      | none => simp only [assemble, found, reduceCtorEq] at taken
      | some f =>
          simp only [assemble, found, Option.ite_none_right_eq_some] at taken
          obtain ⟨⟨fresh, inside⟩, others⟩ := taken
          obtain ⟨proper, unseen⟩ := ih others
          have named : f.name = e.1 := Field.name_of_ofName? found
          constructor
          · apply proper_cons.mpr
            refine ⟨?_, ⟨f, named, inside⟩, proper⟩
            rw [← named]
            exact unseen f List.mem_cons_self
          · intro g earlier member
            rcases List.mem_cons.mp member with same | later
            · have again : g = f := Field.eq_of_name (same.trans named.symm)
              exact fresh (again ▸ earlier)
            · exact unseen g (List.mem_cons_of_mem f earlier) later

/-- A reader takes proper entries and no others. -/
theorem assemble_eq_some {c c' : Settings} {entries : List Entry} :
    assemble c [] entries = some c' ↔ Proper entries ∧ c' = c.applyAll entries := by
  constructor
  · intro taken
    have proper := (proper_of_assemble taken).1
    rw [assemble_proper proper fun f seen => absurd seen List.not_mem_nil] at taken
    exact ⟨proper, (Option.some.inj taken).symm⟩
  · rintro ⟨proper, rfl⟩
    exact assemble_proper proper (fun f seen => absurd seen List.not_mem_nil)

section Results

variable {ε : Type} {entries : List Entry} {x : Except ε Settings}

theorem toOption_bind {α β : Type} (x : Except ε α) (f : α → Except ε β) :
    (x >>= f).toOption = x.toOption.bind fun a => (f a).toOption := by
  cases x <;> rfl

theorem toOption_map {α β : Type} (f : α → β) (x : Except ε α) :
    (f <$> x).toOption = x.toOption.map f := by
  cases x <;> rfl

theorem ok_of_proper (taken : x.toOption = assemble {} [] entries) (proper : Proper entries) :
    x = .ok (({} : Settings).applyAll entries) := by
  rw [assemble_eq_some.mpr ⟨proper, rfl⟩] at taken
  cases x with
  | error fault => cases taken
  | ok c => exact congrArg Except.ok (Option.some.inj taken)

theorem error_of_improper (taken : x.toOption = assemble {} [] entries)
    (improper : ¬ Proper entries) :
    ∃ fault, x = .error fault := by
  cases x with
  | error fault => exact ⟨fault, rfl⟩
  | ok c => exact absurd (assemble_eq_some.mp taken.symm).1 improper

end Results

def entries (c : Settings) : List Entry := Field.all.map fun f => (f.name, (c.get f : Int))

theorem get_lt_size (c : Settings) (f : Field) : c.get f < f.size := by
  cases f
  · exact c.steps.toNat_lt_size
  · exact c.stepDelayMs.toNat_lt_size
  · exact c.dragSteps.toNat_lt_size
  · exact c.dragStepDelayMs.toNat_lt_size
  · exact c.tapHoldMs.toNat_lt_size
  · exact c.maxFingers.toNat_lt_size

theorem proper_entries (c : Settings) : Proper c.entries where
  distinct := by
    have names : c.entries.map Prod.fst = Field.all.map Field.name := by
      simp [entries]
    rw [names]
    decide
  fitting := by
    intro e member
    obtain ⟨f, -, rfl⟩ := List.mem_map.mp member
    exact ⟨f, rfl, Int.natCast_nonneg _, Int.ofNat_lt.mpr (c.get_lt_size f)⟩

theorem applyAll_entries (c d : Settings) : d.applyAll c.entries = c := by
  simp only [entries, applyAll, Field.all, List.map_cons, List.map_nil, List.foldl_cons,
    List.foldl_nil, apply, Field.ofName?_name, set, get, Int.toNat_natCast, UInt32.ofNat_toNat,
    UInt64.ofNat_toNat]

end TouchGesture.Settings
