import TouchGesture.Proofs.Gesture.Cancellation
import TouchGesture.Proofs.Gesture.Replay
import TouchGesture.Proofs.Gesture.Visit
import TouchGesture.Proofs.Touch.Recorder

/-! Gestures on a recorder, which may refuse any one touch. -/

namespace TouchGesture

def Trace.stuck (fingers : List Finger) (verdicts : List Verdict) : List Finger :=
  ((fingers.zip verdicts).filter fun lift => lift.2 ≠ .accepted).map Prod.fst

namespace Recorder

variable {r t : Recorder} {names others guests fingers stay : List Finger} {spots : List Position}
  {f : Finger} {e : TouchEvent} {verdict : Verdict}

theorem failAt_replays {trace : Trace} (told : device.Replays r trace t) : t.failAt = r.failAt := by
  induction trace generalizing r with
  | nil => rw [show r = t from told]
  | cons entry rest ih =>
      cases entry with
      | slept span => exact ih told
      | looked raised => exact ih told
      | touched e verdict =>
          obtain ⟨u, answer, later⟩ := told
          have same : (device.touch e r).2.failAt = r.failAt := touch_failAt r e
          rw [answer] at same
          exact (ih later).trans same

theorem not_crashed_replays {trace : Trace} (told : device.Replays r trace t) (e : TouchEvent) :
    .touched e .crashed ∉ trace := by
  induction trace generalizing r with
  | nil => exact List.not_mem_nil
  | cons entry rest ih =>
      cases entry with
      | slept span => simpa using ih told
      | looked raised => simpa using ih told
      | touched e' verdict =>
          obtain ⟨u, answer, later⟩ := told
          have sound := device_ne_crashed e' r
          rw [answer] at sound
          have tail := ih later
          simp [tail, sound.symm]

namespace Holding

theorem within (holding : r.Holding names others guests) {acts : List Act}
    (inside : ∀ act ∈ acts, act.Within fingers)
    (accepted : device.offer (acts.filterMap Act.touch?) r = (.accepted, t)) :
    t.Holding names others guests := by
  induction acts generalizing r with
  | nil =>
      obtain rfl : r = t := congrArg Prod.snd accepted
      exact holding
  | cons act rest ih =>
      have later : ∀ act ∈ rest, act.Within fingers := fun act member =>
        inside act (List.mem_cons_of_mem _ member)
      have first := inside act List.mem_cons_self
      cases act with
      | sleep span => exact ih holding later accepted
      | touch e =>
          cases e with
          | down f spot => exact first.elim
          | up f => exact first.elim
          | move f spot =>
              obtain ⟨u, one, more⟩ := device.offer_cons_eq_accepted.mp accepted
              obtain rfl := eq_record_of_accepted one
              exact ih (holding.slide spot) later more

theorem downs (holding : r.Holding names others guests) (named : fingers ⊆ names)
    (counts : fingers.length = spots.length)
    (accepted : device.offer (List.zipWith .down fingers spots) r = (.accepted, t)) :
    t.Holding names others (guests ++ fingers) := by
  induction fingers generalizing guests r spots with
  | nil =>
      obtain rfl : r = t := congrArg Prod.snd accepted
      rwa [List.append_nil]
  | cons f fingers ih =>
      cases spots with
      | nil => cases counts
      | cons spot spots =>
          obtain ⟨first, rest⟩ := List.cons_subset.mp named
          obtain ⟨u, one, more⟩ := device.offer_cons_eq_accepted.mp accepted
          obtain rfl := eq_record_of_accepted one
          have last := ih (holding.press first spot) rest (Nat.succ.inj counts) more
          rwa [List.append_assoc] at last

theorem ups (holding : r.Holding names others (fingers ++ stay)) (named : fingers ⊆ names)
    (distinct : (fingers ++ stay).Nodup)
    (accepted : device.offer (fingers.map .up) r = (.accepted, t)) :
    t.Holding names others stay := by
  induction fingers generalizing r with
  | nil =>
      obtain rfl : r = t := congrArg Prod.snd accepted
      exact holding
  | cons f fingers ih =>
      obtain ⟨first, rest⟩ := List.cons_subset.mp named
      obtain ⟨u, one, more⟩ := device.offer_cons_eq_accepted.mp accepted
      obtain rfl := eq_record_of_accepted one
      have gone : (r.record (.up f)).Holding names others ([] ++ (fingers ++ stay)) :=
        Holding.lift holding first distinct
      exact ih gone rest distinct.of_cons more

/-- Of lifts that are all tried, at most one is refused, and its finger stays down. -/
theorem lifts {verdicts : List Verdict} (holding : r.Holding names others (stay ++ fingers))
    (named : fingers ⊆ names) (distinct : (stay ++ fingers).Nodup)
    (counts : verdicts.length = fingers.length)
    (told : device.Replays r (Trace.lifts fingers verdicts) t) :
    t.Holding names others (stay ++ Trace.stuck fingers verdicts) ∧
      (verdicts.count .accepted = fingers.length ∨
        ¬ r.Past ∧ verdicts.count .accepted + 1 = fingers.length) := by
  induction fingers generalizing stay r verdicts with
  | nil =>
      obtain rfl := List.eq_nil_of_length_eq_zero counts
      obtain rfl : r = t := told
      exact ⟨holding, .inl rfl⟩
  | cons f fingers ih =>
      cases verdicts with
      | nil => cases counts
      | cons verdict verdicts =>
          obtain ⟨first, rest⟩ := List.cons_subset.mp named
          obtain ⟨u, answer, later⟩ := told
          have down : (Touch.up f : TouchEvent).Suits r.down := by
            rw [Touch.Suits, holding.guests f first]
            simp
          by_cases accepted : verdict = .accepted
          · subst accepted
            obtain rfl := eq_record_of_accepted answer
            have fewer := (List.nodup_middle.mp distinct).of_cons
            obtain ⟨left, lifted⟩ :=
              ih (holding.lift first distinct) rest fewer (Nat.succ.inj counts) later
            refine ⟨left, ?_⟩
            rw [List.count_cons_self, List.length_cons]
            rcases lifted with all | ⟨ahead, short⟩
            · exact .inl (congrArg Nat.succ all)
            · exact .inr ⟨fun past => ahead (past.record _), congrArg Nat.succ short⟩
          · -- the finger joins those that stay, and from here on no number is due
            obtain ⟨due, -, rfl⟩ := due_of_refused down answer accepted
            have parted : stay ++ f :: fingers = (stay ++ [f]) ++ fingers := by simp
            rw [parted] at holding distinct
            obtain ⟨left, lifted⟩ :=
              ih holding.counted rest distinct (Nat.succ.inj counts) later
            rw [List.count_cons_of_ne accepted, List.length_cons]
            refine ⟨?_, .inr ⟨due.not_past, ?_⟩⟩
            · simpa [Trace.stuck, accepted] using left
            · rcases lifted with all | ⟨ahead, -⟩
              · exact congrArg Nat.succ all
              · exact absurd due.past_counted ahead

end Holding

end Recorder

/-- How a plan fares on a recorder: what its run does, how it ends, and the recorder that it leaves.
The touch that is refused is a press, and then the fingers in front of it are down; or a move, and
then all are; or a lift, and then it and those behind it are. Where fingers are lifted for the
token, at most one lift is refused, and its finger stays down. -/
inductive Plan.Recorded (p : Plan Float) (before : Recorder) :
    Trace → Except Stop Unit → Recorder → Prop
  | withheld : Recorded p before [.looked true] (.error (.fault (.cancelled 0))) before
  | completed {after : Recorder} : after.down = before.down →
      Recorded p before (.looked false :: p.script.flatMap Act.passed) (.ok ()) after
  | cancelled {j : Nat} {done : List Act} {verdicts : List Verdict} {after : Recorder} :
      1 ≤ j → j ≤ p.steps.toNat → p.through j = done ++ [.sleep p.pause] →
      verdicts.length = p.fingers.toNat →
      (verdicts.count .accepted = p.fingers.toNat ∨
        verdicts.count .accepted + 1 = p.fingers.toNat) →
      after.Holding p.fingerNames before.down (Trace.stuck p.fingerNames verdicts) →
      Recorded p before
        (.looked false :: done.flatMap Act.passed ++ [.slept p.pause, .looked true] ++
          Trace.lifts p.fingerNames verdicts)
        (.error (.fault (.cancelled (verdicts.count .accepted)))) after
  | pressRefused {k index : Nat} {e : TouchEvent} {after : Recorder} :
      before.failAt = some index → p.downs[k]? = some e →
      after.Holding p.fingerNames before.down (p.fingerNames.take k) →
      Recorded p before
        (.looked false :: (p.downs.take k).map (.touched · .accepted) ++
          [.touched e (.rejected (.injected index))])
        (.error (.fault (.device (.injected index)))) after
  | moveRefused {index : Nat} {done : List Act} {f : Finger} {spot : Position} {after : Recorder} :
      before.failAt = some index → done ++ [.touch (.move f spot)] <+: p.script →
      after.Holding p.fingerNames before.down p.fingerNames →
      Recorded p before
        (.looked false :: done.flatMap Act.passed ++
          [.touched (.move f spot) (.rejected (.injected index))])
        (.error (.fault (.device (.injected index)))) after
  | liftRefused {k index : Nat} {done : List Act} {f : Finger} {after : Recorder} :
      before.failAt = some index → p.fingerNames[k]? = some f →
      done ++ [.touch (.up f)] <+: p.script →
      after.Holding p.fingerNames before.down (p.fingerNames.drop k) →
      Recorded p before
        (.looked false :: done.flatMap Act.passed ++
          [.touched (.up f) (.rejected (.injected index))])
        (.error (.fault (.device (.injected index)))) after

namespace Recorder

variable {p : Plan Float} {before after : Recorder} {trace : Trace} {ending : Except Stop Unit}

theorem Holding.all_down {t : Recorder} {others : List Finger} (aligned : p.Aligned)
    (holding : before.Holding p.fingerNames others [])
    (told : device.Replays before ((p.downs.map Act.touch).flatMap Act.passed) t) :
    t.Holding p.fingerNames others p.fingerNames :=
  holding.downs (List.Subset.refl _) aligned.length_fingerNames (device.replays_touches.mp told)

/-- A touch that suits and yet ends the run was refused for its number, and left everybody where
they were. -/
theorem refused_last {names others guests : List Finger} {front : Trace} {e : TouchEvent}
    {verdict : Verdict} {stop : Stop}
    (holds : ∀ t : Recorder, device.Replays before front t →
      t.Holding names others guests ∧ e.Suits t.down)
    (refused : verdict.stop? = some stop)
    (told : device.Replays before (front ++ [.touched e verdict]) after) :
    ∃ index, before.failAt = some index ∧ verdict = .rejected (.injected index) ∧
      stop = .fault (.device (.injected index)) ∧ after.Holding names others guests := by
  obtain ⟨t, earlier, u, answer, rfl⟩ := device.replays_append.mp told
  obtain ⟨holding, suits⟩ := holds t earlier
  have failed : verdict ≠ .accepted := by
    rintro rfl
    cases refused
  obtain ⟨due, rfl, rfl⟩ := due_of_refused suits answer failed
  exact ⟨_, (failAt_replays earlier).symm.trans due, rfl, (Option.some.inj refused).symm,
    holding.counted⟩

section Phases

variable {t : Recorder} {others : List Finger} {k : Nat} {f : Finger}

theorem press_phase (aligned : p.Aligned) (start : before.Holding p.fingerNames others [])
    {e : TouchEvent} (here : p.downs[k]? = some e)
    (told : device.Replays before (((p.downs.take k).map Act.touch).flatMap Act.passed) t) :
    t.Holding p.fingerNames others (p.fingerNames.take k) ∧ e.Suits t.down := by
  rw [device.replays_touches, Plan.downs, List.take_zipWith] at told
  have counts : (p.fingerNames.take k).length = (p.starts.take k).length := by
    rw [List.length_take, List.length_take, aligned.length_fingerNames]
  have holding : t.Holding p.fingerNames others (p.fingerNames.take k) :=
    start.downs (List.take_subset _ _) counts told
  refine ⟨holding, ?_⟩
  obtain ⟨f, spot, named, -, rfl⟩ := List.getElem?_zipWith_eq_some.mp here
  obtain ⟨inside, rfl⟩ := List.getElem?_eq_some_iff.mp named
  intro down
  have before := (holding.guests _ (List.getElem_mem inside)).mp down
  have parted : (p.fingerNames.take k ++ [p.fingerNames[k]]).Nodup := by
    rw [List.take_append_getElem inside]
    exact p.nodup_fingerNames.sublist (List.take_sublist _ _)
  exact (List.nodup_append.mp parted).2.2 _ before _ (List.mem_singleton_self _) rfl

theorem between_phase (aligned : p.Aligned) (start : before.Holding p.fingerNames others [])
    {front : List Act} (amid : front <+: p.between)
    (told : device.Replays before ((p.downs.map Act.touch ++ front).flatMap Act.passed) t) :
    t.Holding p.fingerNames others p.fingerNames := by
  rw [List.flatMap_append] at told
  obtain ⟨u, pressed, moved⟩ := device.replays_append.mp told
  have inside : ∀ act ∈ front, act.Within p.fingerNames := fun act member =>
    p.within_between act (amid.subset member)
  exact (start.all_down aligned pressed).within inside (device.replays_passed.mp moved)

theorem move_phase (aligned : p.Aligned) (start : before.Holding p.fingerNames others [])
    {front : List Act} {spot : Position} (amid : front ++ [.touch (.move f spot)] <+: p.between)
    (told : device.Replays before ((p.downs.map Act.touch ++ front).flatMap Act.passed) t) :
    t.Holding p.fingerNames others p.fingerNames ∧
    (Touch.move f spot : TouchEvent).Suits t.down := by
  have holding := between_phase aligned start ((List.prefix_append _ _).trans amid) told
  have within : f ∈ p.fingerNames :=
    p.within_between _ (amid.subset (List.mem_append_right _ List.mem_cons_self))
  exact ⟨holding, (holding.guests f within).mpr within⟩

theorem lift_phase (aligned : p.Aligned) (start : before.Holding p.fingerNames others [])
    (told : device.Replays before ((p.downs.map Act.touch ++ p.between ++
      ((p.fingerNames.take k).map Touch.up).map Act.touch).flatMap Act.passed) t) :
    t.Holding p.fingerNames others (p.fingerNames.drop k) := by
  rw [List.flatMap_append] at told
  obtain ⟨u, earlier, lifted⟩ := device.replays_append.mp told
  have holding := between_phase aligned start List.prefix_rfl earlier
  have distinct := p.nodup_fingerNames
  rw [← List.take_append_drop k p.fingerNames] at distinct
  refine Holding.ups ?_ (List.take_subset _ _) distinct (device.replays_touches.mp lifted)
  rwa [List.take_append_drop]

theorem up_phase (aligned : p.Aligned) (start : before.Holding p.fingerNames others [])
    (named : p.fingerNames[k]? = some f)
    (told : device.Replays before ((p.downs.map Act.touch ++ p.between ++
      ((p.fingerNames.take k).map Touch.up).map Act.touch).flatMap Act.passed) t) :
    t.Holding p.fingerNames others (p.fingerNames.drop k) ∧
      (Touch.up f : TouchEvent).Suits t.down := by
  have holding := lift_phase aligned start told
  have first : f ∈ p.fingerNames.drop k := by
    refine List.mem_of_getElem? (i := 0) ?_
    rwa [List.getElem?_drop, Nat.add_zero]
  exact ⟨holding, (holding.guests f (List.mem_of_getElem? named)).mpr first⟩

end Phases

theorem recorded_of_stopped (aligned : p.Aligned)
    (absent : ∀ f ∈ p.fingerNames, f ∉ before.down) {done : List Act} {e : TouchEvent}
    {verdict : Verdict} {stop : Stop} (cut : done ++ [.touch e] <+: p.script)
    (refused : verdict.stop? = some stop)
    (told : device.Replays before (done.flatMap Act.passed ++ [.touched e verdict]) after) :
    p.Recorded before (.looked false :: done.flatMap Act.passed ++ [.touched e verdict])
      (.error stop) after := by
  have start := holding_of_absent absent
  have whole := cut
  rw [p.script_eq_visit] at cut
  cases Act.visit_cut cut with
  | press here same =>
      subst same
      obtain ⟨index, failing, rfl, rfl, holding⟩ :=
        refused_last (fun _ => press_phase aligned start here) refused told
      rw [Act.passed_touches]
      exact .pressRefused failing here holding
  | amid front amid same =>
      subst same
      -- between the presses and the lifts a finger can only move
      have within := p.within_between _ (amid.subset (List.mem_append_right _ List.mem_cons_self))
      cases e with
      | down f spot => exact within.elim
      | up f => exact within.elim
      | move f spot =>
          obtain ⟨index, failing, rfl, rfl, holding⟩ :=
            refused_last (fun _ => move_phase aligned start amid) refused told
          exact .moveRefused failing whole holding
  | lift named same =>
      subst same
      obtain ⟨index, failing, rfl, rfl, holding⟩ :=
        refused_last (fun _ => up_phase aligned start named) refused told
      exact .liftRefused failing named whole holding

theorem recorded_of_cancelled (aligned : p.Aligned)
    (absent : ∀ f ∈ p.fingerNames, f ∉ before.down) {done : List Act} {span : Span}
    {lifts : Trace} (cut : done ++ [.sleep span] <+: p.script)
    (lifting : Lifting 0 p.fingerNames lifts ending)
    (told : device.Replays before
      (done.flatMap Act.passed ++ [.slept span, .looked true] ++ lifts) after) :
    p.Recorded before
      (.looked false :: done.flatMap Act.passed ++ [.slept span, .looked true] ++ lifts)
      ending after := by
  obtain ⟨j, first, last, same⟩ := Plan.sleep_cut_script cut
  obtain rfl := Plan.sleep_of_cut first same
  rw [p.script_eq_visit] at cut
  cases Act.visit_cut cut with
  | amid front amid whole =>
      subst whole
      cases lifting with
      | crashed verdicts fewer _ =>
          exfalso
          refine not_crashed_replays told (.up p.fingerNames[verdicts.length]) ?_
          refine List.mem_append_right _ (List.mem_iff_getElem?.mpr ⟨verdicts.length, ?_⟩)
          rw [Trace.lifts, List.getElem?_zipWith]
          simp [fewer]
      | finished verdicts counts sound =>
          obtain ⟨t, earlier, lifted⟩ := device.replays_append.mp told
          obtain ⟨u, moved, slept⟩ := device.replays_append.mp earlier
          obtain rfl : u = t := slept
          have holding : u.Holding p.fingerNames before.down ([] ++ p.fingerNames) :=
            between_phase aligned (holding_of_absent absent)
              ((List.prefix_append _ _).trans amid) moved
          obtain ⟨left, all⟩ :=
            holding.lifts (List.Subset.refl _) p.nodup_fingerNames counts lifted
          rw [Nat.zero_add]
          refine .cancelled first last same.symm (counts.trans p.length_fingerNames) ?_ left
          rw [← p.length_fingerNames]
          exact all.imp_right And.right

theorem recorded_of_course (aligned : p.Aligned)
    (absent : ∀ f ∈ p.fingerNames, f ∉ before.down)
    (course : Course p.fingerNames p.script trace ending)
    (told : device.Replays before trace after) : p.Recorded before trace ending after := by
  cases course with
  | withheld =>
      obtain rfl : before = after := told
      exact .withheld
  | begun steps _ passage =>
      replace told : device.Replays before steps after := told
      cases passage with
      | stopped done e verdict stop cut refused =>
          exact recorded_of_stopped aligned absent cut refused told
      | cancelled done span lifts _ cut lifting =>
          exact recorded_of_cancelled aligned absent cut lifting told
      | completed =>
          rw [p.script_eq_visit] at told
          have gone := lift_phase (k := p.fingerNames.length) aligned (holding_of_absent absent)
            (by rwa [List.take_length])
          rw [List.drop_length] at gone
          exact .completed gone.down_eq

theorem not_misused_of_recorded (recorded : p.Recorded before trace ending after) (f : Finger) :
    ending ≠ .error (.fault (.device (.alreadyDown f))) ∧
      ending ≠ .error (.fault (.device (.notDown f))) := by
  cases recorded <;> exact ⟨nofun, nofun⟩

/-- Whichever touch the recorder is told to refuse, and whatever the time source and the token do,
carrying out a plan whose fingers it does not hold ends in one of the ways of `Plan.Recorded`, and
never for a finger that is down already or not down. -/
theorem execute_recorded {τ : Type} (made : p.Made)
    (absent : ∀ f ∈ p.fingerNames, f ∉ before.down) (sleep : Span → τ → τ)
    (cancelled : τ → Bool × τ) (c : τ) :
    ∃ trace ending after t,
      ((device.rig sleep cancelled).traced.execute p).on ((before, c), []) =
        (ending, (after, t), trace) ∧
      ((device.rig sleep cancelled).execute p).on (before, c) = (ending, after, t) ∧
      p.Recorded before trace ending after ∧
      ∀ f, ending ≠ .error (.fault (.device (.alreadyDown f))) ∧
        ending ≠ .error (.fault (.device (.notDown f))) := by
  obtain ⟨trace, ending, ⟨after, t⟩, record, run, course⟩ :=
    (device.rig sleep cancelled).execute_traced p (before, c)
  have told := ((device.rig_hosts sleep cancelled).replays before).execute
    (s := ((before, c), [])) p rfl
  rw [record] at told
  have recorded := recorded_of_course made.aligned absent course told
  exact ⟨trace, ending, after, t, record, run, recorded, not_misused_of_recorded recorded⟩

theorem execute_recorded_beside :
    ∃ (p : Plan Float) (before : Recorder),
      before.down = [⟨5⟩] ∧ before.failAt = some 3 ∧ p.Made ∧
      (∀ f ∈ p.fingerNames, f ∉ before.down) ∧
      ∃ trace ending after,
        ((device.rig (fun _ c => c) (Prod.mk false)).traced.execute p).on ((before, ()), []) =
          (ending, (after, ()), trace) ∧
        p.Recorded before trace ending after := by
  obtain ⟨p, made, -, names, -⟩ := Plan.exists_zoom
  have absent : ∀ f ∈ p.fingerNames, f ∉ (Recorder.mk #[] [⟨5⟩] (some 3) 0).down := by
    rw [names]
    decide
  obtain ⟨trace, ending, after, ⟨⟩, record, -, recorded, -⟩ :=
    execute_recorded made absent (fun _ c => c) (Prod.mk false) ()
  exact ⟨p, _, rfl, rfl, made, absent, trace, ending, after, record, recorded⟩

end Recorder

end TouchGesture
