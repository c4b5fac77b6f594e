import TouchGesture.Proofs.Gesture.Count
import TouchGesture.Proofs.Gesture.Recording

/-! Where a recorder tells that the fingers of a gesture went, each of them by itself. -/

namespace TouchGesture

section Own

variable {α : Type} {touch : Finger → α → TouchEvent} {names : List Finger} {points : List α}
  {f : Finger} {spot : α} {k : Nat}

theorem filter_zipWith_foreign (marked : ∀ g a, (touch g a).finger = g) (points : List α)
    (foreign : f ∉ names) :
    (List.zipWith touch names points).filter (fun e => e.finger = f) = [] := by
  rw [List.filter_eq_nil_iff]
  intro e member
  obtain ⟨i, here⟩ := List.mem_iff_getElem?.mp member
  obtain ⟨g, a, named, -, rfl⟩ := List.getElem?_zipWith_eq_some.mp here
  have differ : g ≠ f := by
    rintro rfl
    exact foreign (List.mem_of_getElem? named)
  simpa [marked] using differ

theorem filter_zipWith_own (marked : ∀ g a, (touch g a).finger = g) (distinct : names.Nodup)
    (named : names[k]? = some f) (here : points[k]? = some spot) :
    (List.zipWith touch names points).filter (fun e => e.finger = f) = [touch f spot] := by
  induction names generalizing points k with
  | nil => cases named
  | cons g names ih =>
      obtain ⟨fresh, apart⟩ := List.nodup_cons.mp distinct
      cases points with
      | nil => cases here
      | cons a points =>
          rw [List.zipWith_cons_cons]
          cases k with
          | zero =>
              obtain rfl : g = f := Option.some.inj named
              obtain rfl : a = spot := Option.some.inj here
              rw [List.filter_cons_of_pos (by simp [marked]),
                filter_zipWith_foreign marked points fresh]
          | succ k =>
              have later : names[k]? = some f := named
              have differ : g ≠ f := by
                rintro rfl
                exact fresh (List.mem_of_getElem? later)
              rw [List.filter_cons_of_neg (by simp [marked, differ])]
              exact ih apart later here

end Own

namespace Plan

variable {p : Plan Float} {f : Finger} {k : Nat}

def stages (p : Plan Float) : List (List Position) := p.starts :: (p.frames ++ [p.ends])

theorem length_stages (p : Plan Float) : p.stages.length = p.steps.toNat + 2 := by
  rw [stages, List.length_cons, List.length_append, length_frames, List.length_singleton]

theorem getElem?_fingerNames (inside : k < p.fingers.toNat) :
    p.fingerNames[k]? = some ⟨UInt32.ofNat k⟩ := by
  rw [fingerNames, Finger.first, List.getElem?_map, List.getElem?_range inside]
  rfl

theorem not_mem_fingerNames (beyond : p.fingers ≤ f.index) : f ∉ p.fingerNames := by
  intro member
  obtain ⟨k, named⟩ := List.mem_iff_getElem?.mp member
  obtain ⟨inside, -⟩ := List.getElem?_eq_some_iff.mp named
  rw [p.length_fingerNames] at inside
  obtain rfl := Finger.getElem?_first named
  have small : k < UInt32.size := Nat.lt_trans inside p.fingers.toNat_lt
  have above : p.fingers.toNat ≤ (UInt32.ofNat k).toNat := UInt32.le_iff_toNat_le.mp beyond
  have same : (UInt32.ofNat k).toNat = k := UInt32.toNat_ofNat_of_lt small
  omega

theorem events_eq (p : Plan Float) :
    p.events = p.downs ++ (p.frames ++ [p.ends]).flatMap p.moves ++ p.ups := by
  rw [events, List.flatMap_append, List.flatMap_singleton, ← List.append_assoc]

theorem filter_events_foreign (foreign : f ∉ p.fingerNames) :
    p.events.filter (fun e => e.finger = f) = [] := by
  have moved : ((p.frames ++ [p.ends]).flatMap p.moves).filter (fun e => e.finger = f) = [] := by
    rw [List.filter_flatMap, List.flatMap_eq_nil_iff]
    exact fun points _ => filter_zipWith_foreign (fun _ _ => rfl) points foreign
  rw [events_eq, List.filter_append, List.filter_append, moved, ups_eq, downs,
    filter_zipWith_foreign (fun _ _ => rfl) _ foreign,
    filter_zipWith_foreign (fun _ _ => rfl) _ foreign]
  rfl

-- Induction on the times that the fingers are moved: each leaves one move of the finger.
theorem filter_moves_own (named : p.fingerNames[k]? = some f) {rows : List (List Position)}
    (counts : ∀ points ∈ rows, points.length = p.fingers.toNat) :
    ∃ spots : List Position, rows.map (·[k]?) = spots.map some ∧
      (rows.flatMap p.moves).filter (fun e => e.finger = f) = spots.map (Touch.move f) := by
  induction rows with
  | nil => exact ⟨[], rfl, rfl⟩
  | cons points rest ih =>
      obtain ⟨first, later⟩ := List.forall_mem_cons.mp counts
      obtain ⟨spots, places, own⟩ := ih later
      obtain ⟨inside, -⟩ := List.getElem?_eq_some_iff.mp named
      rw [p.length_fingerNames, ← first] at inside
      have here : points[k]? = some points[k] := List.getElem?_eq_getElem inside
      refine ⟨points[k] :: spots, ?_, ?_⟩
      · rw [List.map_cons, List.map_cons, here, places]
      · rw [List.flatMap_cons, List.filter_append, own, moves,
          filter_zipWith_own (fun _ _ => rfl) p.nodup_fingerNames named here]
        rfl

/-- A finger of the plan goes down where it starts, is moved as the stages say, and goes up. No
other touch is its own. -/
theorem Aligned.filter_events_own (aligned : p.Aligned) (named : p.fingerNames[k]? = some f) :
    ∃ (start : Position) (spots : List Position),
      p.stages.map (·[k]?) = some start :: spots.map some ∧
      p.events.filter (fun e => e.finger = f) =
        .down f start :: (spots.map (Touch.move f) ++ [.up f]) := by
  obtain ⟨inside, -⟩ := List.getElem?_eq_some_iff.mp named
  rw [aligned.length_fingerNames] at inside
  have here : p.starts[k]? = some p.starts[k] := List.getElem?_eq_getElem inside
  have counts : ∀ points ∈ p.frames ++ [p.ends], points.length = p.fingers.toNat := by
    intro points member
    rcases List.mem_append.mp member with frame | last
    · exact aligned.length_of_mem_frames points frame
    · rw [List.mem_singleton.mp last]
      exact aligned.ends_length
  obtain ⟨spots, places, moved⟩ := filter_moves_own named counts
  refine ⟨p.starts[k], spots, ?_, ?_⟩
  · rw [stages, List.map_cons, here, places]
  · rw [events_eq, List.filter_append, List.filter_append, moved, ups_eq, downs,
      filter_zipWith_own (fun _ _ => rfl) p.nodup_fingerNames named here,
      filter_zipWith_own (fun _ _ => rfl) p.nodup_fingerNames named named]
    rfl

end Plan

/-- What a recorder tells after a plan was carried out on it. The path of a finger of the plan has
one place of each stage, and its moves are the path without its press. Of other fingers nothing new
is told. -/
structure Plan.Tracked (p : Plan Float) (before after : Recorder) : Prop where
  path : ∀ k < p.fingers.toNat,
    (after.pathOf ⟨UInt32.ofNat k⟩).map some = p.stages.map (·[k]?)
  moves : ∀ k < p.fingers.toNat,
    after.movesOf ⟨UInt32.ofNat k⟩ = (after.pathOf ⟨UInt32.ofNat k⟩).tail
  length : ∀ k < p.fingers.toNat, (after.pathOf ⟨UInt32.ofNat k⟩).length = p.steps.toNat + 2
  others : ∀ f : Finger, p.fingers ≤ f.index →
    after.pathOf f = before.pathOf f ∧ after.movesOf f = before.movesOf f

namespace Recorder

variable {p : Plan Float} {before after r t : Recorder} {events : List TouchEvent} {f : Finger}
  {trace : Trace} {ending : Except Stop Unit} {n k : Nat}

theorem events_offer (accepted : device.offer events r = (.accepted, t)) :
    t.events.toList = r.events.toList ++ events := by
  induction events generalizing r with
  | nil =>
      obtain rfl : r = t := congrArg Prod.snd accepted
      exact (List.append_nil _).symm
  | cons e rest ih =>
      obtain ⟨u, one, more⟩ := device.offer_cons_eq_accepted.mp accepted
      obtain rfl := eq_record_of_accepted one
      rw [ih more, record, Array.toList_push, List.append_assoc, List.singleton_append]

section Grown

variable (grown : after.events.toList = before.events.toList ++ events)
include grown

theorem pathOf_grown :
    after.pathOf f =
      before.pathOf f ++ (events.filter fun e => e.finger = f).filterMap Touch.point? := by
  rw [pathOf, grown, List.filter_append, List.filterMap_append, pathOf]

theorem movesOf_grown :
    after.movesOf f = before.movesOf f ++
      ((events.filter fun e => e.finger = f).filter fun e => e.phase = .move).filterMap
        Touch.point? := by
  have both : ∀ log : List TouchEvent, (log.filter fun e => e.finger = f ∧ e.phase = .move) =
      (log.filter fun e => e.finger = f).filter fun e => e.phase = .move := by
    intro log
    rw [List.filter_filter]
    refine List.filter_congr fun e _ => ?_
    simp [Bool.and_comm]
  rw [movesOf, grown, both, List.filter_append, List.filter_append, List.filterMap_append, ← both,
    movesOf]

end Grown

theorem told_of_unseen (unseen : ∀ e ∈ before.events.toList, e.finger ≠ f) :
    before.pathOf f = [] ∧ before.movesOf f = [] := by
  have none : (before.events.toList.filter fun e => e.finger = f) = [] := by
    simpa [List.filter_eq_nil_iff] using unseen
  have still : (before.events.toList.filter fun e => e.finger = f ∧ e.phase = .move) = [] := by
    rw [List.filter_eq_nil_iff]
    intro e member
    simp [unseen e member]
  rw [pathOf, movesOf, none, still]
  exact ⟨rfl, rfl⟩

theorem filterMap_moves (f : Finger) (spots : List Position) :
    (spots.map (Touch.move f)).filterMap Touch.point? = spots := by
  simp [List.filterMap_map, Function.comp_def, Touch.point?]

theorem told_of_grown (aligned : p.Aligned) (named : p.fingerNames[k]? = some f)
    (unseen : ∀ e ∈ before.events.toList, e.finger ≠ f)
    (grown : after.events.toList = before.events.toList ++ p.events) :
    ∃ (start : Position) (spots : List Position),
      p.stages.map (·[k]?) = some start :: spots.map some ∧
      after.pathOf f = start :: spots ∧ after.movesOf f = spots := by
  obtain ⟨start, spots, places, own⟩ := aligned.filter_events_own named
  obtain ⟨path, moves⟩ := told_of_unseen unseen
  refine ⟨start, spots, places, ?_, ?_⟩
  · rw [pathOf_grown grown, path, own, List.nil_append, List.filterMap_cons_some (by rfl),
      List.filterMap_append, filterMap_moves]
    exact congrArg (start :: ·) (List.append_nil spots)
  · have moved : (spots.map (Touch.move f)).filter (fun e => e.phase = .move) =
        spots.map (Touch.move f) := by
      simp [Touch.phase]
    rw [movesOf_grown grown, moves, own, List.nil_append,
      List.filter_cons_of_neg (by simp [Touch.phase]), List.filter_append, moved,
      List.filterMap_append, filterMap_moves]
    exact List.append_nil spots

theorem tracked_of_grown (aligned : p.Aligned)
    (unseen : ∀ f ∈ p.fingerNames, ∀ e ∈ before.events.toList, e.finger ≠ f)
    (grown : after.events.toList = before.events.toList ++ p.events) : p.Tracked before after := by
  have told : ∀ k < p.fingers.toNat, ∃ (start : Position) (spots : List Position),
      p.stages.map (·[k]?) = some start :: spots.map some ∧
      after.pathOf ⟨UInt32.ofNat k⟩ = start :: spots ∧
        after.movesOf ⟨UInt32.ofNat k⟩ = spots := by
    intro k inside
    have named := Plan.getElem?_fingerNames inside
    exact told_of_grown aligned named (unseen _ (List.mem_of_getElem? named)) grown
  refine ⟨fun k inside => ?_, fun k inside => ?_, fun k inside => ?_, fun f beyond => ?_⟩
  · obtain ⟨start, spots, places, path, -⟩ := told k inside
    rw [path, places, List.map_cons]
  · obtain ⟨start, spots, -, path, moves⟩ := told k inside
    rw [path, moves, List.tail_cons]
  · obtain ⟨start, spots, places, path, -⟩ := told k inside
    have count := congrArg List.length places
    rw [List.length_map, p.length_stages, List.length_cons, List.length_map] at count
    rw [path, List.length_cons, ← count]
  · have foreign := Plan.filter_events_foreign (Plan.not_mem_fingerNames beyond)
    rw [pathOf_grown grown, movesOf_grown grown, foreign]
    simp

theorem attempts_replays (told : device.Replays r trace t) :
    t.attempts = r.attempts + (trace.filterMap Entry.touch?).length := by
  induction trace generalizing r with
  | nil =>
      obtain rfl : r = t := told
      rfl
  | cons entry rest ih =>
      cases entry with
      | slept span => exact ih told
      | looked raised => exact ih told
      | touched e verdict =>
          obtain ⟨u, answer, later⟩ := told
          have one := attempts_touch r e
          rw [answer] at one
          rw [ih later, one, List.filterMap_cons_some (by rfl), List.length_cons]
          omega

theorem Spares.not_due_later (spared : r.Spares n) (told : device.Replays r trace t)
    (few : (trace.filterMap Entry.touch?).length < n) : ¬ t.Due := by
  intro due
  have next : r.failAt = some (t.attempts + 1) := (failAt_replays told).symm.trans due
  rw [attempts_replays told] at next
  have number := spared _ next
  omega

theorem due_of_injected {e : TouchEvent} {verdict : Verdict} {index : Nat}
    (answer : device.touch e r = (verdict, t))
    (refused : verdict.stop? = some (.fault (.device (.injected index)))) : r.Due := by
  have outcome : r.Outcome e (device.touch e r) := r.touch_outcome e
  rw [answer] at outcome
  cases outcome with
  | injected due => exact due
  | misused _ _ => cases e <;> cases refused
  | recorded _ _ => cases refused

theorem ending_of_recorded (recorded : p.Recorded before trace ending after) :
    ending = .ok () ∨ (∃ lifted, ending = .error (.fault (.cancelled lifted))) ∨
      ∃ index, ending = .error (.fault (.device (.injected index))) := by
  cases recorded with
  | withheld => exact .inr (.inl ⟨0, rfl⟩)
  | completed _ => exact .inl rfl
  | cancelled _ _ _ _ _ _ => exact .inr (.inl ⟨_, rfl⟩)
  | pressRefused _ _ _ => exact .inr (.inr ⟨_, rfl⟩)
  | moveRefused _ _ _ => exact .inr (.inr ⟨_, rfl⟩)
  | liftRefused _ _ _ _ => exact .inr (.inr ⟨_, rfl⟩)

theorem ending_of_spared (aligned : p.Aligned) (absent : ∀ f ∈ p.fingerNames, f ∉ before.down)
    (spared : before.Spares p.events.length)
    (course : Course p.fingerNames p.script trace ending)
    (told : device.Replays before trace after) :
    ending = .ok () ∨ ∃ lifted, ending = .error (.fault (.cancelled lifted)) := by
  rcases ending_of_recorded (recorded_of_course aligned absent course told) with
    done | cancelled | ⟨index, rfl⟩
  · exact .inl done
  · exact .inr cancelled
  · exfalso
    cases course with
    | begun steps _ passage =>
        replace told : device.Replays before steps after := told
        cases passage with
        | stopped done e verdict _ cut refused =>
            obtain ⟨t, earlier, u, answer, -⟩ := device.replays_append.mp told
            have short := (cut.filterMap Act.touch?).length_le
            rw [p.touches_script, List.filterMap_append, List.length_append] at short
            refine spared.not_due_later earlier ?_ (due_of_injected answer refused)
            rw [touches_passed]
            exact short
        | cancelled done span lifts _ cut lifting => cases lifting

end Recorder

theorem Course.raised {fingers : List Finger} {script : List Act} {trace : Trace} {lifted : Nat}
    (course : Course fingers script trace (.error (.fault (.cancelled lifted)))) :
    .looked true ∈ trace := by
  cases course with
  | withheld => exact List.mem_singleton_self _
  | begun steps _ passage =>
      refine List.mem_cons_of_mem _ ?_
      cases passage with
      | stopped done e verdict _ cut refused => cases verdict <;> cases refused
      | cancelled done span lifts _ cut lifting => simp

theorem Course.offered {σ : Type} {d : Device σ} {u v : σ} {p : Plan Float} {trace : Trace}
    (course : Course p.fingerNames p.script trace (.ok ())) (told : d.Replays u trace v) :
    d.offer p.events u = (.accepted, v) := by
  obtain rfl := course.eq_completed
  rw [← p.touches_script]
  exact d.replays_passed.mp told

namespace Rig

variable {σ : Type} {r : Rig σ}

theorem keeps_calm (calm : ∀ u, (r.cancelled u).1 = false) :
    r.traced.Keeps fun state => .looked true ∉ state.2 where
  touch := fun e (s, trace) quiet => by simpa [traced_touch] using quiet
  sleep := fun span (s, trace) quiet => by simpa [traced_sleep] using quiet
  cancelled := fun (s, trace) quiet => by simpa [traced_cancelled, calm] using quiet
  note _ _ quiet := quiet

/-- Where a recorder has seen none of the fingers of a plan, it tells after a run that goes through
where each of them went. The run does go through where the recorder holds none of these fingers and
spares them, as long as the token is not raised. -/
theorem Hosts.execute_tracked {view : σ → Recorder} (hosts : r.Hosts Recorder.device view)
    {p : Plan Float} (made : p.Made) {s : σ}
    (unseen : ∀ f ∈ p.fingerNames, ∀ e ∈ (view s).events.toList, e.finger ≠ f) :
    ∃ ending t, (r.execute p).on s = (ending, t) ∧
      (ending = .ok () → p.Tracked (view s) (view t)) ∧
      ((∀ f ∈ p.fingerNames, f ∉ (view s).down) → (view s).Spares p.events.length →
        (ending = .ok () ∨ ∃ lifted, ending = .error (.fault (.cancelled lifted))) ∧
          ((∀ u, (r.cancelled u).1 = false) → ending = .ok ())) := by
  obtain ⟨trace, ending, t, record, run, course⟩ := r.execute_traced p s
  have told := (hosts.replays (view s)).execute (s := (s, [])) p rfl
  rw [record] at told
  refine ⟨ending, t, run, ?_, fun absent spared => ?_⟩
  · rintro rfl
    exact Recorder.tracked_of_grown made.aligned unseen
      (Recorder.events_offer (course.offered told))
  · have ends := Recorder.ending_of_spared made.aligned absent spared course told
    refine ⟨ends, fun calm => ?_⟩
    rcases ends with done | ⟨lifted, rfl⟩
    · exact done
    · have quiet := (keeps_calm calm).execute (s := (s, [])) p List.not_mem_nil
      rw [record] at quiet
      exact absurd course.raised quiet

/-- Another finger is down on the recorder, and the touch after the gesture will be refused. -/
theorem Hosts.execute_tracked_beside :
    ∃ (p : Plan Float) (before after : Recorder),
      p.Made ∧ before.down = [⟨5⟩] ∧ before.failAt = some (p.events.length + 2) ∧
      (∀ f ∈ p.fingerNames, ∀ e ∈ before.events.toList, e.finger ≠ f) ∧
      (∀ f ∈ p.fingerNames, f ∉ before.down) ∧ before.Spares p.events.length ∧
      ((Recorder.device.rig (fun _ c => c) (Prod.mk false)).execute p).on (before, ()) =
        (.ok (), after, ()) ∧
      p.Tracked before after := by
  obtain ⟨p, made, -, names, -⟩ := Plan.exists_zoom
  have unseen : ∀ f ∈ p.fingerNames, ∀ e ∈ [(Touch.down ⟨5⟩ ⟨1, 1⟩ : TouchEvent)],
      e.finger ≠ f := by
    rw [names]
    decide
  have absent : ∀ f ∈ p.fingerNames, f ∉ [(⟨5⟩ : Finger)] := by
    rw [names]
    decide
  let before : Recorder :=
    ⟨#[.down ⟨5⟩ ⟨1, 1⟩], [⟨5⟩], some (p.events.length + 2), 1⟩
  have spared : before.Spares p.events.length := by
    intro m due
    obtain rfl : p.events.length + 2 = m := Option.some.inj due
    refine .inr ?_
    change 1 + p.events.length < p.events.length + 2
    omega
  have hosts := Recorder.device.rig_hosts (fun _ (c : Unit) => c) (Prod.mk false)
  obtain ⟨ending, ⟨after, ⟨⟩⟩, run, tracked, goes⟩ :=
    hosts.execute_tracked made (s := (before, ())) unseen
  obtain rfl := (goes absent spared).2 fun _ => rfl
  exact ⟨p, before, after, made, rfl, rfl, unseen, absent, spared, run, tracked rfl⟩

end Rig

end TouchGesture
