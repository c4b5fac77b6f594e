import Mathlib.Data.List.Induction
import TouchGesture.Proofs.Gesture.Dispatch

/-! What a token can do to a gesture: where it may cut a plan's script, and what follows the cut. -/

namespace TouchGesture

namespace Plan

variable {p : Plan Float} {done : List Act} {span : Span}

theorem sleep_cut_before_touches {front : List Act} {events : List TouchEvent}
    (cut : done ++ [.sleep span] <+: front ++ events.map .touch) :
    done ++ [.sleep span] <+: front := by
  induction events using List.reverseRecOn with
  | nil => simpa using cut
  | append_singleton events e ih =>
      rw [List.map_append, ← List.append_assoc, List.map_singleton, List.prefix_concat_iff] at cut
      rcases cut with whole | earlier
      · have last := (List.append_inj' whole rfl).2
        simp at last
      · exact ih earlier

theorem sleep_cut_through {steps : Nat} (cut : done ++ [.sleep span] <+: p.through steps) :
    ∃ j, 1 ≤ j ∧ j ≤ steps ∧ done ++ [.sleep span] = p.through j := by
  induction steps with
  | zero =>
      have start : done ++ [.sleep span] <+: [] ++ p.downs.map .touch := by
        simpa [through] using cut
      simpa using sleep_cut_before_touches start
  | succ steps ih =>
      rw [through_succ, List.prefix_concat_iff, ← through_succ] at cut
      rcases cut with whole | earlier
      · exact ⟨steps + 1, by omega, Nat.le_refl _, whole⟩
      · obtain ⟨j, first, last, same⟩ := ih (sleep_cut_before_touches earlier)
        exact ⟨j, first, by omega, same⟩

/-- A prefix of the script that ends with a sleep is all that is done through some step. -/
theorem sleep_cut_script (cut : done ++ [.sleep span] <+: p.script) :
    ∃ j, 1 ≤ j ∧ j ≤ p.steps.toNat ∧ done ++ [.sleep span] = p.through j := by
  apply sleep_cut_through
  rw [script] at cut
  exact sleep_cut_before_touches (sleep_cut_before_touches cut)

theorem sleep_of_cut {j : Nat} (first : 1 ≤ j) (same : done ++ [.sleep span] = p.through j) :
    span = p.pause := by
  obtain ⟨i, rfl⟩ := Nat.exists_eq_add_of_le' first
  rw [through_succ] at same
  simpa using (List.append_inj' same rfl).2

end Plan

/-- Whatever the device, the time source and the token answer, carrying out a plan looks at the
token once before the first touch and once after every sleep, and goes in one of four ways. The
token is raised from the start, and nothing is done. A touch is not accepted, and the run ends with
it. The look after the `j`-th sleep finds the token raised, and every finger is lifted. Or all of
the schedule is done. -/
theorem execute_watched {σ : Type} (r : Rig σ) {p : Plan Float} (made : p.Made) (s : σ) :
    ∃ script fingers trace ending t,
      (r.traced.execute p).on (s, []) = (ending, t, trace) ∧ (r.execute p).on s = (ending, t) ∧
      (∀ acts, p.Scheduled acts ↔ acts = script) ∧
      fingers.map (fun f : Finger => f.index.toNat) = List.range p.fingers.toNat ∧
      ((trace = [.looked true] ∧ ending = .error (.fault (.cancelled 0))) ∨
        (∃ done e verdict stop,
          done ++ [.touch e] <+: script ∧ verdict.stop? = some stop ∧
          trace = .looked false :: done.flatMap Act.passed ++ [.touched e verdict] ∧
          ending = .error stop) ∨
        (∃ j done lifts,
          1 ≤ j ∧ j ≤ p.steps.toNat ∧ p.Begun j (done ++ [.sleep p.pause]) ∧
          done ++ [.sleep p.pause] <+: script ∧
          trace = .looked false :: done.flatMap Act.passed ++
            [.slept p.pause, .looked true] ++ lifts ∧
          Lifting 0 fingers lifts ending) ∨
        (trace = .looked false :: script.flatMap Act.passed ∧ ending = .ok ())) := by
  have aligned := made.aligned
  obtain ⟨trace, ending, t, record, run, course⟩ := r.execute_traced p s
  refine ⟨p.script, p.fingerNames, trace, ending, t, record, run, fun _ => aligned.scheduled_iff,
    p.indexes_fingerNames, ?_⟩
  cases course with
  | withheld => exact .inl ⟨rfl, rfl⟩
  | begun steps _ passage =>
      refine .inr ?_
      cases passage with
      | completed => exact .inr (.inr ⟨rfl, rfl⟩)
      | stopped done e verdict stop cut refused =>
          exact .inl ⟨done, e, verdict, stop, cut, refused, rfl, rfl⟩
      | cancelled done span lifts _ cut lifting =>
          obtain ⟨j, first, last, same⟩ := Plan.sleep_cut_script cut
          obtain rfl := Plan.sleep_of_cut first same
          have begun : p.Begun j (done ++ [.sleep p.pause]) := same ▸ aligned.begun_through j
          exact .inr (.inl ⟨j, done, lifts, first, last, begun, cut, rfl, lifting⟩)

/-- A pinch whose token is raised at the look after the second sleep and at no other, on a recorder
that refuses its seventh touch: both fingers are lifted, the first in vain. -/
theorem execute_watched_pinch :
    ∃ (r : Rig (Recorder × Nat)) (p : Plan Float),
      r = Recorder.device.rig (fun _ looks => looks) (fun looks => (looks = 2, looks + 1)) ∧
      p.Made ∧ p.fingers = 2 ∧ p.steps = 4 ∧
      ∃ script fingers trace ending t,
        (r.traced.execute p).on ((Recorder.new.failingAt 7, 0), []) = (ending, t, trace) ∧
        (r.execute p).on (Recorder.new.failingAt 7, 0) = (ending, t) ∧
        (∀ acts, p.Scheduled acts ↔ acts = script) ∧
        fingers.map (fun f : Finger => f.index.toNat) = List.range p.fingers.toNat ∧
        ((trace = [.looked true] ∧ ending = .error (.fault (.cancelled 0))) ∨
          (∃ done e verdict stop,
            done ++ [.touch e] <+: script ∧ verdict.stop? = some stop ∧
            trace = .looked false :: done.flatMap Act.passed ++ [.touched e verdict] ∧
            ending = .error stop) ∨
          (∃ j done lifts,
            1 ≤ j ∧ j ≤ p.steps.toNat ∧ p.Begun j (done ++ [.sleep p.pause]) ∧
            done ++ [.sleep p.pause] <+: script ∧
            trace =
              .looked false :: done.flatMap Act.passed ++
                [.slept p.pause, .looked true] ++ lifts ∧
            Lifting 0 fingers lifts ending) ∨
          (trace = .looked false :: script.flatMap Act.passed ∧ ending = .ok ())) ∧
        trace = [.looked false,
          .touched (.down ⟨0⟩ ⟨-10, 0⟩) .accepted,
          .touched (.down ⟨1⟩ ⟨10, 0⟩) .accepted,
          .touched (.move ⟨0⟩ ⟨-20, 0⟩) .accepted,
          .touched (.move ⟨1⟩ ⟨20, 0⟩) .accepted,
          .slept (.ofMilliseconds 5), .looked false,
          .touched (.move ⟨0⟩ ⟨-30, 0⟩) .accepted,
          .touched (.move ⟨1⟩ ⟨30, 0⟩) .accepted,
          .slept (.ofMilliseconds 5), .looked true,
          .touched (.up ⟨0⟩) (.rejected (.injected 7)), .touched (.up ⟨1⟩) .accepted] ∧
        ending = .error (.fault (.cancelled 1)) := by
  obtain ⟨script, fingers, trace, ending, t, record, run, scheduled, names, ways⟩ :=
    execute_watched (Recorder.device.rig (fun _ looks => looks) fun looks => (looks = 2, looks + 1))
      (.inl ⟨_, Pinch.zoom_planned⟩) (Recorder.new.failingAt 7, 0)
  have ended : _ = ending := congrArg Prod.fst run
  -- the faults of a run are not compared as a whole, so its count of lifts is read off first
  have lifted : (match ending with
      | .error (.fault (.cancelled count)) => some count
      | _ => none) = some 1 := by
    rw [← ended]
    decide +kernel
  refine ⟨_, _, rfl, .inl ⟨_, Pinch.zoom_planned⟩, rfl, rfl, script, fingers, trace, ending,
    t, record, run, scheduled, names, ways, (congrArg (·.2.2) record).symm.trans ?_, ?_⟩
  · decide +kernel
  · split at lifted
    · rw [Option.some.inj lifted]
    · cases lifted

end TouchGesture
