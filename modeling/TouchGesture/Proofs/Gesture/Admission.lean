import TouchGesture.Proofs.Gesture.Visit

/-! When a panel lets a gesture through, and what it says and holds when it does not. -/

namespace TouchGesture

theorem Rig.touchAll_unwatched {σ : Type} (r : Rig σ) (events : List TouchEvent) :
    r.unwatched.touchAll events = r.touchAll events := by
  induction events with
  | nil => rfl
  | cons e rest ih => rw [touchAll, touchAll, ih, unwatched_touch]

theorem Drive.not_cancelled {script : List Act} {trace : Trace} {lifted : Nat} :
    ¬ Drive script trace (.error (.fault (.cancelled lifted))) := by
  intro drive
  cases drive with
  | stopped done e verdict stop cut refused =>
      cases verdict with
      | accepted => cases refused
      | rejected refusal => cases refused
      | crashed => cases refused

theorem Rig.Hosts.execute_unwatched_refused {σ : Type} {r : Rig σ} {view : σ → Panel} {s : σ}
    {p : Plan Float} {q : Panel} {refusal : Refusal} {front back : List TouchEvent} {e : TouchEvent}
    (hosts : r.Hosts Panel.device view) (split : p.downs = front ++ e :: back)
    (accepted : Panel.device.offer front (view s) = (.accepted, q))
    (refused : Panel.device.touch e q = (.rejected refusal, q)) :
    ∃ t, (r.traced.unwatched.execute p).on (s, []) =
      (.error (.fault (.device refusal)), t,
        front.map (.touched · .accepted) ++ [.touched e (.rejected refusal)]) := by
  obtain ⟨u, noted, kept⟩ := hosts.on_note
    (.gestureStart p.fingers.toNat p.steps.toNat (UInt64.ofNat p.pause.microseconds)) s
  rw [← kept] at accepted
  obtain ⟨t, -, record, -⟩ := hosts.touchAll_refused back accepted refused
  refine ⟨t, ?_⟩
  rw [on_execute, unwatched_cancelled]
  simp only [unwatched_note, traced_note, noted, Plan.script, Plan.through, List.append_assoc]
  rw [follow_append, follow_touches, touchAll_unwatched, Run.on_bind, Run.on_bind, split, record]
  rfl

namespace Panel

variable {max : Nat} {p : Panel}

/-- Without a token, a gesture goes all the way on a panel exactly if none of its fingers is in
contact before and there is a free slot for each. Otherwise the run ends with the first press that
is refused: by the first finger in contact, if the slots last until then, and else by want of a
slot. The fingers in front have landed, and nothing has moved, lifted or slept. -/
theorem execute_unwatched_admission (reached : p.Reachable max) {plan : Plan Float}
    (made : plan.Made) {τ : Type} (sleep : Span → τ → τ) (cancelled : τ → Bool × τ)
    (c : τ) :
    ∃ trace ending q c',
      ((device.rig sleep cancelled).traced.unwatched.execute plan).on ((p, c), []) =
        (ending, (q, c'), trace) ∧
      ((device.rig sleep cancelled).unwatched.execute plan).on (p, c) = (ending, q, c') ∧
      (ending = .ok () ↔ p.Admits plan.fingerNames) ∧
      (¬ p.Admits plan.fingerNames →
        ∃ e refusal,
          plan.downs[p.landing plan.fingerNames]? = some e ∧
          refusal = (if p.clear plan.fingerNames < plan.fingers.toNat ∧
              p.clear plan.fingerNames ≤ p.slots.count none
            then .alreadyDown ⟨UInt32.ofNat (p.clear plan.fingerNames)⟩
              else .noFreeSlot max) ∧
          ending = .error (.fault (.device refusal)) ∧
          trace = (plan.downs.take (p.landing plan.fingerNames)).map (.touched · .accepted) ++
            [.touched e (.rejected refusal)] ∧
          p.Landed (plan.fingerNames.take (p.landing plan.fingerNames))
            (plan.starts.take (p.landing plan.fingerNames)) q) := by
  have hosts := device.rig_hosts sleep cancelled
  have counts := made.aligned.length_fingerNames
  obtain ⟨trace, ending, ⟨q, c'⟩, record, run, drive⟩ :=
    (device.rig sleep cancelled).execute_unwatched plan (p, c)
  obtain ⟨_, _, ran, visit⟩ :=
    hosts.unwatched.execute_visit (s := (p, c)) reached.sound made.aligned rfl
  obtain ⟨rfl, rfl⟩ := Prod.mk.inj (ran.symm.trans run)
  refine ⟨trace, _, q, c', record, run, ?_⟩
  cases visit with
  | completed admitted _ =>
      exact ⟨⟨fun _ => admitted, fun _ => rfl⟩, fun closed => absurd admitted closed⟩
  | cancelled _ _ => exact drive.not_cancelled.elim
  | refused closed here landed =>
      refine ⟨⟨nofun, fun admitted => absurd admitted closed⟩, fun _ => ?_⟩
      obtain ⟨f, spot, u, first, second, front, refused⟩ :=
        reached.sound.offer_refused plan.nodup_fingerNames counts closed
      obtain rfl := Option.some.inj (here.symm.trans first)
      have press : plan.downs[p.landing plan.fingerNames]? = some (.down _ spot) :=
        List.getElem?_zipWith_eq_some.mpr ⟨_, spot, first, second, rfl⟩
      obtain ⟨t, stopped⟩ := hosts.execute_unwatched_refused (s := (p, c))
        (zipWith_split first second) front.pressed refused
      have same : trace = _ := congrArg (fun run => run.2.2) (record.symm.trans stopped)
      refine ⟨_, _, press, ?_, rfl, ?_, landed⟩
      · rw [refusal, reached.sound.slots_length, plan.length_fingerNames]
        split
        next taken =>
          have place : p.landing plan.fingerNames = p.clear plan.fingerNames :=
            Nat.min_eq_left taken.2
          rw [Finger.getElem?_first first, place]
        next => rfl
      · rw [same, ← List.take_zipWith]
        rfl

/-- Finger 1 holds the first of three slots. A pinch is refused its second finger when the first has
landed. -/
theorem execute_unwatched_admission_taken :
    ∃ (p : Panel) (plan : Plan Float), p.Reachable 3 ∧ plan.Made ∧
      p.slots = [some ⟨1⟩, none, none] ∧
      ∃ trace q,
        ((device.rig (fun _ c => c) (Prod.mk false)).traced.unwatched.execute plan).on
          ((p, ()), []) =
          (.error (.fault (.device (.alreadyDown ⟨1⟩))), (q, ()), trace) ∧
        trace = [.touched (.down ⟨0⟩ ⟨-10, 0⟩) .accepted,
          .touched (.down ⟨1⟩ ⟨10, 0⟩) (.rejected (.alreadyDown ⟨1⟩))] ∧
        p.Landed [⟨0⟩] [⟨-10, 0⟩] q := by
  have reached := (@Reachable.fresh 3).touch (.down ⟨1⟩ ⟨1, 2⟩)
  obtain ⟨plan, made, two, names, starts⟩ := Plan.exists_zoom
  obtain ⟨trace, ending, q, ⟨⟩, record, -, -, refused⟩ :=
    execute_unwatched_admission reached made (fun _ c => c) (Prod.mk false) ()
  rw [Plan.downs, names, starts, two] at refused
  obtain ⟨e, refusal, press, told, rfl, rfl, landed⟩ :=
    refused (by unfold Admits; decide +kernel)
  have front : (touch (.down ⟨1⟩ ⟨1, 2⟩) (ofSlots 3)).2.landing [⟨0⟩, ⟨1⟩] = 1 := by
    decide +kernel
  have second : Touch.down ⟨1⟩ ⟨10, 0⟩ = e := by simpa [front] using press
  have taken : refusal = .alreadyDown ⟨1⟩ := told.trans (by decide +kernel)
  rw [front] at landed record
  rw [← second, taken] at record
  exact ⟨_, plan, reached, made, by decide +kernel, _, q, record, rfl, landed⟩

end Panel

end TouchGesture
