import TouchGesture.Gesture.Run

/-! Runs as functions on states: how a run ends and the state that it leaves. -/

namespace TouchGesture

def Verdict.stop? : Verdict → Option Stop
  | .accepted => none
  | .rejected refusal => some (.fault (.device refusal))
  | .crashed => some .crash

def Run.on {σ α : Type} (run : Run σ α) (s : σ) : Except Stop α × σ := run.run.run s

namespace Run

variable {σ α β : Type}

@[simp] theorem on_lift (m : StateM σ α) (s : σ) :
    Run.on (liftM m : Run σ α) s = (.ok (m s).1, (m s).2) := rfl

theorem on_bind (run : Run σ α) (next : α → Run σ β) (s : σ) :
    Run.on (run >>= next) s =
      match run.on s with
      | (.ok a, t) => (next a).on t
      | (.error stop, t) => (.error stop, t) := by
  simp only [Run.on, ExceptT.run_bind, StateT.run_bind]
  rcases run.run.run s with ⟨result | result, t⟩ <;> rfl

theorem on_lift_bind (m : StateM σ α) (next : α → Run σ β) (s : σ) :
    Run.on (liftM m >>= next) s = (next (m s).1).on (m s).2 := by
  rw [on_bind, on_lift]

theorem ext {first second : Run σ α} (agree : ∀ s, first.on s = second.on s) : first = second :=
  funext agree

end Run

namespace Rig

variable {σ : Type} (r : Rig σ)

@[simp] theorem on_touchAll_nil (s : σ) : (r.touchAll []).on s = (.ok (), s) := rfl

theorem on_touchAll_cons (e : TouchEvent) (rest : List TouchEvent) (s : σ) :
    (r.touchAll (e :: rest)).on s =
      match (r.touch e s).1.stop? with
      | none => (r.touchAll rest).on (r.touch e s).2
      | some stop => (.error stop, (r.touch e s).2) := by
  rw [touchAll, Run.on_lift_bind]
  cases (r.touch e s).1 <;> rfl

@[simp] theorem on_liftAll_nil (lifted : Nat) (s : σ) :
    (r.liftAll lifted []).on s =
      (.error (.fault (.cancelled lifted)), (r.note (.gestureCancelled lifted) s).2) := rfl

theorem on_liftAll_cons (lifted : Nat) (f : Finger) (rest : List Finger) (s : σ) :
    (r.liftAll lifted (f :: rest)).on s =
      match (r.touch (.up f) s).1 with
      | .accepted => (r.liftAll (lifted + 1) rest).on (r.touch (.up f) s).2
      | .rejected refusal =>
          (r.liftAll lifted rest).on (r.note (.liftFailed f refusal) (r.touch (.up f) s).2).2
      | .crashed => (.error .crash, (r.touch (.up f) s).2) := by
  rw [liftAll, Run.on_lift_bind]
  cases (r.touch (.up f) s).1 <;> rfl

theorem on_liftAll_error (lifted : Nat) (fingers : List Finger) (s : σ) :
    ∃ stop t, (r.liftAll lifted fingers).on s = (.error stop, t) := by
  induction fingers generalizing lifted s with
  | nil => exact ⟨_, _, r.on_liftAll_nil lifted s⟩
  | cons f rest ih =>
      rw [on_liftAll_cons]
      cases (r.touch (.up f) s).1 with
      | accepted => exact ih _ _
      | rejected refusal => exact ih _ _
      | crashed => exact ⟨_, _, rfl⟩

theorem liftAll_bind (lifted : Nat) (fingers : List Finger) (next : Unit → Run σ Unit) :
    r.liftAll lifted fingers >>= next = r.liftAll lifted fingers := by
  apply Run.ext
  intro s
  obtain ⟨stop, t, ends⟩ := r.on_liftAll_error lifted fingers s
  rw [Run.on_bind, ends]

end Rig

end TouchGesture
