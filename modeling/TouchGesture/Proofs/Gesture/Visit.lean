import TouchGesture.Proofs.Gesture.Host
import TouchGesture.Proofs.Gesture.Landing

/-! Gestures on a panel. Their fingers come down, move about and go up again, and a panel that lets
them all come is in the end as it was before. -/

namespace TouchGesture

def Act.Within (fingers : List Finger) : Act → Prop
  | .touch (.move f _) => f ∈ fingers
  | .touch _ => False
  | .sleep _ => True

def Act.visit (fingers : List Finger) (spots : List Position) (between : List Act) : List Act :=
  (List.zipWith Touch.down fingers spots).map .touch ++ between ++ (fingers.map Touch.up).map .touch

namespace Plan

variable (p : Plan Float)

def between : List Act :=
  (List.range p.steps.toNat).flatMap p.beat ++ (p.moves p.ends).map .touch

theorem script_eq_visit : p.script = Act.visit p.fingerNames p.starts p.between := by
  simp only [script, through, Act.visit, between, downs, ups, List.append_assoc]

theorem within_moves (points : List Position) :
    ∀ act ∈ (p.moves points).map Act.touch, act.Within p.fingerNames := by
  intro act member
  obtain ⟨e, move, rfl⟩ := List.mem_map.mp member
  obtain ⟨i, here⟩ := List.mem_iff_getElem?.mp move
  obtain ⟨f, point, named, -, rfl⟩ := List.getElem?_zipWith_eq_some.mp here
  exact List.mem_of_getElem? named

theorem within_between : ∀ act ∈ p.between, act.Within p.fingerNames := by
  intro act member
  rcases List.mem_append.mp member with step | last
  · obtain ⟨i, -, inside⟩ := List.mem_flatMap.mp step
    rcases List.mem_append.mp inside with move | sleep
    · exact p.within_moves _ act move
    · obtain rfl := List.mem_singleton.mp sleep
      trivial
  · exact p.within_moves _ act last

end Plan

section Cuts

variable {α : Type} {done front back : List α} {x : α}

theorem cut_append (cut : done ++ [x] <+: front ++ back) :
    done ++ [x] <+: front ∨ ∃ rest, done = front ++ rest ∧ rest ++ [x] <+: back := by
  obtain ⟨tail, whole⟩ := cut
  rcases List.append_eq_append_iff.mp whole with ⟨more, inside, -⟩ | ⟨more, beyond, last⟩
  · exact .inl ⟨more, inside.symm⟩
  · rcases List.eq_nil_or_concat more with rfl | ⟨rest, y, rfl⟩
    · exact .inl ⟨[], by simpa using beyond⟩
    · rw [List.concat_eq_append, ← List.append_assoc] at beyond
      obtain ⟨same, single⟩ := List.append_inj' beyond rfl
      obtain rfl : x = y := by simpa using single
      refine .inr ⟨rest, same, tail, ?_⟩
      simpa using last.symm

theorem cut_take (cut : done ++ [x] <+: front) :
    front[done.length]? = some x ∧ done = front.take done.length := by
  obtain ⟨tail, rfl⟩ := cut
  simp

end Cuts

inductive Act.Cut (fingers : List Finger) (spots : List Position) (between : List Act)
    (done : List Act) : Act → Prop
  | press {k : Nat} {e : TouchEvent} : (List.zipWith Touch.down fingers spots)[k]? = some e →
      done = ((List.zipWith Touch.down fingers spots).take k).map .touch →
      Cut fingers spots between done (.touch e)
  | amid {act : Act} (front : List Act) : front ++ [act] <+: between →
      done = (List.zipWith Touch.down fingers spots).map .touch ++ front →
      Cut fingers spots between done act
  | lift {k : Nat} {f : Finger} : fingers[k]? = some f →
      done = (List.zipWith Touch.down fingers spots).map .touch ++ between ++
        ((fingers.take k).map Touch.up).map .touch →
      Cut fingers spots between done (.touch (.up f))

theorem Act.visit_cut {fingers : List Finger} {spots : List Position} {between done : List Act}
    {act : Act} (cut : done ++ [act] <+: Act.visit fingers spots between) :
    Act.Cut fingers spots between done act := by
  rw [Act.visit, List.append_assoc] at cut
  rcases cut_append cut with early | ⟨rest, rfl, later⟩
  · obtain ⟨here, before⟩ := cut_take early
    rw [List.getElem?_map, Option.map_eq_some_iff] at here
    obtain ⟨e, pressed, rfl⟩ := here
    rw [← List.map_take] at before
    exact .press pressed before
  · rcases cut_append later with amid | ⟨lifts, rfl, last⟩
    · exact .amid rest amid rfl
    · obtain ⟨here, before⟩ := cut_take last
      rw [List.getElem?_map, List.getElem?_map, Option.map_map, Option.map_eq_some_iff] at here
      obtain ⟨f, named, rfl⟩ := here
      refine .lift named ?_
      rw [before, ← List.map_take, ← List.map_take, List.append_assoc]
      simp

/-- The panel is as it was before fingers came, and remembers only in its log and its last tracking
id that they were there. -/
structure Panel.Restored (before : Panel) (fingers : List Finger) (after : Panel) : Prop where
  contacts : after.contacts = before.contacts
  slots : after.slots = before.slots
  absent : ∀ f ∈ fingers, ¬ after.isDown f
  lastTrackingId : after.lastTrackingId = before.lastTrackingId + fingers.length
  log : before.log.toList <+: after.log.toList

/-- In 64 bits the count of tracking ids grows by as many fingers, as long as it fits. -/
theorem Panel.Restored.toNat_lastTrackingId {before after : Panel} {fingers : List Finger}
    (restored : before.Restored fingers after)
    (few : before.lastTrackingId + fingers.length < UInt64.size) :
    (UInt64.ofNat after.lastTrackingId).toNat = before.lastTrackingId + fingers.length := by
  rw [restored.lastTrackingId]
  exact UInt64.toNat_ofNat_of_lt few

/-- How fingers fare on a panel, and the panel that they leave. -/
inductive Panel.Visit (p : Panel) (fingers : List Finger) (spots : List Position) :
    Except Stop Unit → Panel → Prop
  | completed {q : Panel} : p.Admits fingers → p.Restored fingers q →
      Visit p fingers spots (.ok ()) q
  | cancelled {q : Panel} : p.Admits fingers → p.Restored fingers q →
      Visit p fingers spots (.error (.fault (.cancelled fingers.length))) q
  | refused {f : Finger} {q : Panel} :
      ¬ p.Admits fingers → fingers[p.landing fingers]? = some f →
      p.Landed (fingers.take (p.landing fingers)) (spots.take (p.landing fingers)) q →
      Visit p fingers spots (.error (.fault (.device (p.refusal fingers f)))) q

namespace Panel

variable {max arrivals : Nat} {home p : Panel} {guests fingers : List Finger}
  {spots : List Position}

theorem Visited.restored (visited : Visited max home fingers.length [] p)
    (up : ∀ f ∈ fingers, ¬ home.isDown f) : home.Restored fingers p where
  contacts := (contacts_without_nobody p.contacts).symm.trans visited.contacts
  slots := (slots_without_nobody p.slots).symm.trans visited.slots
  absent := fun f member down =>
    up f member (visited.isDown_home_iff.mpr ⟨down, List.not_mem_nil⟩)
  lastTrackingId := visited.lastTrackingId
  log := visited.log

end Panel

namespace Rig

open Panel

variable {σ : Type} {r : Rig σ} {view : σ → Panel} {max arrivals : Nat} {home p : Panel}
  {guests fingers : List Finger} {spots : List Position} {s : σ}

theorem Hosts.liftAll_guests (hosts : r.Hosts Panel.device view) (lifted : Nat)
    (visited : Visited max home arrivals guests (view s)) (distinct : guests.Nodup) :
    ∃ t, (r.liftAll lifted guests).on s =
        (.error (.fault (.cancelled (lifted + guests.length))), t) ∧
      Visited max home arrivals [] (view t) := by
  induction guests generalizing lifted s with
  | nil =>
      refine ⟨_, r.on_liftAll_nil lifted s, ?_⟩
      rwa [hosts.note]
  | cons f guests ih =>
      obtain ⟨once, apart⟩ := List.nodup_cons.mp distinct
      obtain ⟨q, accepted, left⟩ := visited.lift once
      obtain ⟨u, touched, rfl⟩ := hosts.on_touch accepted
      obtain ⟨t, run, gone⟩ := ih (lifted + 1) left apart
      refine ⟨t, ?_, gone⟩
      rw [on_liftAll_cons, touched, List.length_cons, Nat.add_comm guests.length, ← Nat.add_assoc]
      exact run

/-- While its guests are down, a panel accepts what they do; a raised token has them all lifted. -/
theorem Hosts.follow_within (hosts : r.Hosts Panel.device view) {between : List Act}
    (visited : Visited max home arrivals guests (view s)) (distinct : guests.Nodup)
    (within : ∀ act ∈ between, act.Within guests) :
    (∃ t, (r.follow guests between).on s = (.ok (), t) ∧
      Visited max home arrivals guests (view t)) ∨
    ∃ t, (r.follow guests between).on s = (.error (.fault (.cancelled guests.length)), t) ∧
      Visited max home arrivals [] (view t) := by
  induction between generalizing s with
  | nil => exact .inl ⟨s, rfl, visited⟩
  | cons act rest ih =>
      have later : ∀ act ∈ rest, act.Within guests := fun act member =>
        within act (List.mem_cons_of_mem _ member)
      have first := within act List.mem_cons_self
      cases act with
      | touch e =>
          cases e with
          | down f spot => exact first.elim
          | up f => exact first.elim
          | move f spot =>
              obtain ⟨q, accepted, stay⟩ := visited.slide first spot
              obtain ⟨t, touched, rfl⟩ := hosts.on_touch accepted
              rw [on_follow_touch, touched]
              exact ih stay later
      | sleep span =>
          obtain ⟨raised, t, looked, same⟩ := hosts.on_sleep span s
          rw [← same] at visited
          rw [on_follow_sleep, looked]
          cases raised with
          | false => exact ih visited later
          | true =>
              -- the lifts of a raised token are accepted one and all, for every guest is down
              have lifting := hosts.liftAll_guests 0 visited distinct
              rw [Nat.zero_add] at lifting
              exact .inr lifting

theorem Hosts.follow_visit (hosts : r.Hosts Panel.device view) (sound : (view s).Sound max)
    {between : List Act} (distinct : fingers.Nodup) (counts : fingers.length = spots.length)
    (within : ∀ act ∈ between, act.Within fingers) :
    ∃ ending t, (r.follow fingers (Act.visit fingers spots between)).on s = (ending, t) ∧
      Visit (view s) fingers spots ending (view t) := by
  have parts : Act.visit fingers spots between =
      (List.zipWith Touch.down fingers spots).map .touch ++
        (between ++ (fingers.map Touch.up).map .touch) := List.append_assoc _ _ _
  rw [parts, follow_append, follow_touches, follow_append, follow_touches]
  by_cases admitted : (view s).Admits fingers
  · have up : ∀ f ∈ fingers, ¬ (view s).isDown f := up_of_admits admitted
    obtain ⟨q, visited, landing⟩ := sound.offer_downs distinct counts up admitted.2
    obtain ⟨t, landed, rfl⟩ := hosts.touchAll_accepted landing.pressed
    rcases hosts.follow_within visited distinct within with
      ⟨u, acted, stay⟩ | ⟨u, acted, gone⟩
    · obtain ⟨p, accepted, gone⟩ := stay.offer_ups distinct
      obtain ⟨w, lifted, rfl⟩ := hosts.touchAll_accepted accepted
      refine ⟨.ok (), w, ?_, .completed admitted (gone.restored up)⟩
      simp only [Run.on_bind, landed, acted, lifted]
    · refine ⟨_, u, ?_, .cancelled admitted (gone.restored up)⟩
      simp only [Run.on_bind, landed, acted]
  · obtain ⟨f, spot, q, here, there, landed, refused⟩ :=
      sound.offer_refused distinct counts admitted
    obtain ⟨t, ran, -, rfl⟩ := hosts.touchAll_refused _ landed.pressed refused
    refine ⟨_, t, ?_, .refused admitted here landed⟩
    rw [Run.on_bind, zipWith_split here there, ran]

theorem Hosts.tap_visit (hosts : r.Hosts Panel.device view) (sound : (view s).Sound max)
    {point : Position} (finite : point.isFinite) (hold : Span) (calm : (r.cancelled s).1 = false) :
    ∃ ending t, (r.tap point hold).on s = (ending, t) ∧
      Visit (view s) [⟨0⟩] [point] ending (view t) := by
  obtain ⟨u, same, run⟩ := hosts.tap_follows calm finite hold
  have within : ∀ act ∈ [Act.sleep hold], act.Within [⟨0⟩] := by
    intro act member
    obtain rfl := List.mem_singleton.mp member
    trivial
  have script : Act.tap point hold = Act.visit [⟨0⟩] [point] [.sleep hold] := rfl
  rw [run, ← same, script]
  exact hosts.follow_visit (same ▸ sound) (List.pairwise_singleton _ _) rfl within

theorem Hosts.execute_visit (hosts : r.Hosts Panel.device view) (sound : (view s).Sound max)
    {p : Plan Float} (aligned : p.Aligned) (calm : (r.cancelled s).1 = false) :
    ∃ ending t, (r.execute p).on s = (ending, t) ∧
      Visit (view s) p.fingerNames p.starts ending (view t) := by
  obtain ⟨u, ending, t, v, same, followed, run, last⟩ := hosts.execute_follows calm p
  rw [p.script_eq_visit] at followed
  obtain ⟨_, _, ran, visit⟩ := hosts.follow_visit (same ▸ sound) p.nodup_fingerNames
    aligned.length_fingerNames p.within_between
  obtain ⟨rfl, rfl⟩ := Prod.mk.inj (ran.symm.trans followed)
  refine ⟨_, v, run, ?_⟩
  rw [last, ← same]
  exact visit

end Rig

end TouchGesture
