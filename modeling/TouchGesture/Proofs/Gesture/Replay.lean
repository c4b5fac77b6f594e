import TouchGesture.Proofs.Gesture.Host

/-! A trace tells what has become of the device: what its touches make of the device that the run
began with. -/

namespace TouchGesture

theorem Act.passed_touches (events : List TouchEvent) :
    (events.map Act.touch).flatMap Act.passed = events.map (.touched · .accepted) := by
  induction events with
  | nil => rfl
  | cons e rest ih => simp [Act.passed, ih]

namespace Device

variable {δ : Type} (d : Device δ) {u v : δ}

/-- The touches of the trace get its answers, one after another, and lead from one state to
another. -/
def Replays : δ → Trace → δ → Prop
  | u, [], v => u = v
  | u, .touched e verdict :: rest, v => ∃ t, d.touch e u = (verdict, t) ∧ Replays t rest v
  | u, .slept _ :: rest, v => Replays u rest v
  | u, .looked _ :: rest, v => Replays u rest v

theorem replays_append {front back : Trace} :
    d.Replays u (front ++ back) v ↔ ∃ t, d.Replays u front t ∧ d.Replays t back v := by
  induction front generalizing u with
  | nil => simp [Replays]
  | cons entry front ih =>
      cases entry with
      | slept span => simpa [Replays] using ih
      | looked raised => simpa [Replays] using ih
      | touched e verdict =>
          simp only [List.cons_append, Replays, ih]
          constructor
          · rintro ⟨t, answer, w, first, second⟩
            exact ⟨w, ⟨t, answer, first⟩, second⟩
          · rintro ⟨w, ⟨t, answer, first⟩, second⟩
            exact ⟨t, answer, w, first, second⟩

theorem replays_passed {acts : List Act} :
    d.Replays u (acts.flatMap Act.passed) v ↔
      d.offer (acts.filterMap Act.touch?) u = (.accepted, v) := by
  induction acts generalizing u with
  | nil => simp [Replays, offer]
  | cons act rest ih =>
      cases act with
      | sleep span => exact ih
      | touch e =>
          rw [List.flatMap_cons, List.filterMap_cons_some (by rfl), offer]
          simp only [Act.passed, List.cons_append, List.nil_append, Replays]
          rcases d.touch e u with ⟨verdict, t⟩
          cases verdict <;> simp [ih]

theorem replays_touches {events : List TouchEvent} :
    d.Replays u ((events.map Act.touch).flatMap Act.passed) v ↔
      d.offer events u = (.accepted, v) := by
  rw [replays_passed, Plan.filterMap_touch_map]

theorem replays_granted {acts : List Act} :
    d.Replays u (acts.map Act.granted) v ↔
      d.offer (acts.filterMap Act.touch?) u = (.accepted, v) := by
  induction acts generalizing u with
  | nil => simp [Replays, offer]
  | cons act rest ih =>
      cases act with
      | sleep span => exact ih
      | touch e =>
          rw [List.map_cons, List.filterMap_cons_some (by rfl), offer]
          simp only [Act.granted, Replays]
          rcases d.touch e u with ⟨verdict, t⟩
          cases verdict <;> simp [ih]

end Device

/-- What a traced run has done to the device of its rig is told by its trace. -/
theorem Rig.Hosts.replays {σ δ : Type} {r : Rig σ} {d : Device δ} {view : σ → δ}
    (hosts : r.Hosts d view) (start : δ) :
    r.traced.Keeps fun state => d.Replays start state.2 (view state.1) where
  touch e state told := by
    refine d.replays_append.mpr ⟨_, told, _, Prod.ext ?_ ?_, rfl⟩
    · exact (hosts.verdict e state.1).symm
    · exact (hosts.touch e state.1).symm
  sleep span state told :=
    d.replays_append.mpr ⟨_, told, (hosts.sleep span state.1).symm⟩
  cancelled state told :=
    d.replays_append.mpr ⟨_, told, (hosts.cancelled state.1).symm⟩
  note n state told := by
    change d.Replays start state.2 (view (r.note n state.1).2)
    rwa [hosts.note]

end TouchGesture
