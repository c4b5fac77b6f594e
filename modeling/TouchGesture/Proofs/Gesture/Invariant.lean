import TouchGesture.Proofs.Gesture.Script

/-! What everything that a rig does preserves, a whole gesture preserves, however it ends. -/

namespace TouchGesture.Rig

variable {σ : Type} {r : Rig σ} {Inv : σ → Prop} {s : σ}

structure Keeps (r : Rig σ) (Inv : σ → Prop) : Prop where
  touch : ∀ e s, Inv s → Inv (r.touch e s).2
  sleep : ∀ span s, Inv s → Inv (r.sleep span s).2
  cancelled : ∀ s, Inv s → Inv (r.cancelled s).2
  note : ∀ n s, Inv s → Inv (r.note n s).2

namespace Keeps

theorem unwatched (keeps : r.Keeps Inv) : r.unwatched.Keeps Inv where
  touch := keeps.touch
  sleep := keeps.sleep
  cancelled _ start := start
  note := keeps.note

theorem liftAll (keeps : r.Keeps Inv) (lifted : Nat) (fingers : List Finger) (start : Inv s) :
    Inv ((r.liftAll lifted fingers).on s).2 := by
  induction fingers generalizing lifted s with
  | nil => exact keeps.note _ s start
  | cons f rest ih =>
      have next := keeps.touch (.up f) s start
      rw [on_liftAll_cons]
      cases (r.touch (.up f) s).1 with
      | accepted => exact ih _ next
      | rejected refusal => exact ih _ (keeps.note _ _ next)
      | crashed => exact next

theorem follow (keeps : r.Keeps Inv) (fingers : List Finger) (script : List Act) (start : Inv s) :
    Inv ((r.follow fingers script).on s).2 := by
  induction script generalizing s with
  | nil => exact start
  | cons act rest ih =>
      cases act with
      | touch e =>
          have next := keeps.touch e s start
          rw [on_follow_touch]
          cases (r.touch e s).1.stop? with
          | none => exact ih next
          | some stop => exact next
      | sleep span =>
          have next := keeps.cancelled _ (keeps.sleep span s start)
          rw [on_follow_sleep]
          generalize r.cancelled (r.sleep span s).2 = look at next ⊢
          obtain ⟨raised, t⟩ := look
          cases raised with
          | false => exact ih next
          | true => exact keeps.liftAll 0 fingers next

theorem execute (keeps : r.Keeps Inv) (p : Plan Float) (start : Inv s) :
    Inv ((r.execute p).on s).2 := by
  have looked := keeps.cancelled s start
  rw [on_execute]
  generalize r.cancelled s = look at looked ⊢
  obtain ⟨raised, t⟩ := look
  cases raised with
  | true => exact looked
  | false =>
      have noted := keeps.note
        (.gestureStart p.fingers.toNat p.steps.toNat (UInt64.ofNat p.pause.microseconds)) t looked
      have done := keeps.follow p.fingerNames p.script noted
      simp only [Run.on_bind]
      generalize (r.follow p.fingerNames p.script).on _ = result at done ⊢
      obtain ⟨ending, u⟩ := result
      cases ending with
      | error stop => exact done
      | ok => exact keeps.note _ u done

theorem tap (keeps : r.Keeps Inv) (point : Position) (hold : Span) (start : Inv s) :
    Inv ((r.tap point hold).on s).2 := by
  by_cases finite : point.isFinite
  · have looked := keeps.cancelled s start
    rw [on_tap _ finite]
    generalize r.cancelled s = look at looked ⊢
    obtain ⟨raised, t⟩ := look
    cases raised with
    | true => exact looked
    | false => exact keeps.follow [⟨0⟩] (Act.tap point hold) (keeps.note (.tap point) t looked)
  · rw [on_tap_refused _ finite]
    exact start

end Keeps

end TouchGesture.Rig
