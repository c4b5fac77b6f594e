import TouchGesture.Proofs.Gesture.Visit

/-! A gesture that ends well, or that a token cuts short while it sleeps, leaves the panel as it
was. -/

namespace TouchGesture

/-- The run ended well, or a token cut it short after some sleep. -/
def Trace.SeenThrough (trace : Trace) (ending : Except Stop Unit) : Prop :=
  ending = .ok () ∨
    (∃ lifted, ending = .error (.fault (.cancelled lifted))) ∧ ∃ span, .slept span ∈ trace

namespace Panel

variable {max : Nat} {p q : Panel} {fingers : List Finger} {spots : List Position} {trace : Trace}
  {ending : Except Stop Unit}

/-- Whatever the time source and the token do, a gesture of the first `n` fingers that is seen
through leaves the panel as it was, with `n` tracking ids more used up. Where it was cut short, all
`n` fingers were lifted. The last tracking id fits 64 bits as long as the count does. -/
def RestoredBy (p : Panel) (n : Nat) (gesture : {σ : Type} → Rig σ → Run σ Unit) : Prop :=
  ∃ fingers : List Finger, fingers.map (fun f => f.index.toNat) = List.range n ∧
    ∀ {τ : Type} (sleep : Span → τ → τ) (cancelled : τ → Bool × τ) (c : τ),
      ∃ trace ending q c',
        (gesture (device.rig sleep cancelled).traced).on ((p, c), []) = (ending, (q, c'), trace) ∧
        (gesture (device.rig sleep cancelled)).on (p, c) = (ending, q, c') ∧
        (trace.SeenThrough ending →
          p.Restored fingers q ∧ q.lastTrackingId = p.lastTrackingId + n ∧
          (p.lastTrackingId + n < UInt64.size →
            (UInt64.ofNat q.lastTrackingId).toNat = p.lastTrackingId + n) ∧
          ∀ lifted, ending = .error (.fault (.cancelled lifted)) → lifted = n)

theorem Visit.restores {n : Nat} (visit : Visit p fingers spots ending q)
    (counts : fingers.length = n) (through : trace.SeenThrough ending) :
    p.Restored fingers q ∧ q.lastTrackingId = p.lastTrackingId + n ∧
      (p.lastTrackingId + n < UInt64.size →
        (UInt64.ofNat q.lastTrackingId).toNat = p.lastTrackingId + n) ∧
      ∀ lifted, ending = .error (.fault (.cancelled lifted)) → lifted = n := by
  subst counts
  cases visit with
  | completed _ restored =>
      exact ⟨restored, restored.lastTrackingId, restored.toNat_lastTrackingId, nofun⟩
  | cancelled _ restored =>
      refine ⟨restored, restored.lastTrackingId, restored.toNat_lastTrackingId,
        fun lifted same => ?_⟩
      cases same
      rfl
  | refused _ _ _ =>
      rcases through with done | ⟨⟨lifted, cut⟩, -⟩
      · cases done
      · cases cut

theorem not_seenThrough_withheld :
    ¬ Trace.SeenThrough [.looked true] (.error (.fault (.cancelled 0))) := by
  rintro (done | ⟨-, span, slept⟩)
  · cases done
  · simp at slept

theorem restoredBy_execute (sound : p.Sound max) {plan : Plan Float} (aligned : plan.Aligned) :
    p.RestoredBy plan.fingers.toNat fun r => r.execute plan := by
  refine ⟨plan.fingerNames, plan.indexes_fingerNames, fun {τ} sleep cancelled c => ?_⟩
  have hosts := device.rig_hosts sleep cancelled
  cases looked : ((device.rig sleep cancelled).cancelled (p, c)).1 with
  | true =>
      obtain ⟨run, record⟩ := Rig.execute_withheld _ looked plan
      exact ⟨_, _, _, _, record, run, fun through => (not_seenThrough_withheld through).elim⟩
  | false =>
      obtain ⟨trace, ending, ⟨q, c'⟩, record, run, -⟩ :=
        (device.rig sleep cancelled).execute_traced plan (p, c)
      obtain ⟨_, _, ran, visit⟩ := hosts.execute_visit (s := (p, c)) sound aligned looked
      obtain ⟨rfl, rfl⟩ := Prod.mk.inj (ran.symm.trans run)
      exact ⟨trace, _, q, c', record, run, visit.restores plan.length_fingerNames⟩

theorem restoredBy_tap (sound : p.Sound max) (point : Position) (hold : Span) :
    p.RestoredBy 1 fun r => r.tap point hold := by
  refine ⟨[⟨0⟩], rfl, fun {τ} sleep cancelled c => ?_⟩
  have hosts := device.rig_hosts sleep cancelled
  by_cases finite : point.isFinite
  · cases looked : ((device.rig sleep cancelled).cancelled (p, c)).1 with
    | true =>
        obtain ⟨run, record⟩ := Rig.tap_withheld _ looked finite hold
        exact ⟨_, _, _, _, record, run, fun through => (not_seenThrough_withheld through).elim⟩
    | false =>
        obtain ⟨trace, ending, ⟨q, c'⟩, record, run, -⟩ :=
          (device.rig sleep cancelled).tap_traced finite hold (p, c)
        obtain ⟨_, _, ran, visit⟩ := hosts.tap_visit (s := (p, c)) sound finite hold looked
        obtain ⟨rfl, rfl⟩ := Prod.mk.inj (ran.symm.trans run)
        exact ⟨trace, _, q, c', record, run, visit.restores rfl⟩
  · refine ⟨[], _, p, c, Rig.on_tap_refused _ finite hold _, Rig.on_tap_refused _ finite hold _,
      ?_⟩
    rintro (done | ⟨-, span, slept⟩)
    · cases done
    · cases slept

theorem gestures_restore (reached : p.Reachable max) {plan : Plan Float} (made : plan.Made)
    (point : Position) (hold : Span) :
    p.RestoredBy plan.fingers.toNat (fun r => r.execute plan) ∧
      p.RestoredBy 1 (fun r => r.tap point hold) :=
  ⟨restoredBy_execute reached.sound made.aligned, restoredBy_tap reached.sound point hold⟩

/-- A pinch and a tap on a panel where finger 3 holds the second of four slots. -/
theorem gestures_restore_beside :
    ∃ (p : Panel) (plan : Plan Float), p.Reachable 4 ∧ plan.Made ∧ plan.fingers = 2 ∧
      p.slots = [none, some ⟨3⟩, none, none] ∧
      p.RestoredBy plan.fingers.toNat (fun r => r.execute plan) ∧
      p.RestoredBy 1 (fun r => r.tap ⟨5, 5⟩ (.ofMilliseconds 100)) := by
  have reached :=
    ((@Reachable.fresh 4).touch (.down ⟨7⟩ ⟨1, 2⟩)).touch (.down ⟨3⟩ ⟨30, 4⟩)
    |>.touch (.up ⟨7⟩)
  obtain ⟨plan, made, two, -⟩ := Plan.exists_zoom
  exact ⟨_, plan, reached, made, two, by decide +kernel, gestures_restore reached made _ _⟩

end Panel

end TouchGesture
