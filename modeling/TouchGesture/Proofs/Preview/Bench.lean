import TouchGesture.Preview.Request
import TouchGesture.Proofs.Gesture.Admission
import TouchGesture.Proofs.Gesture.Replay
import TouchGesture.Proofs.Gesture.Session
import TouchGesture.Proofs.Gesture.Timing

/-! Gestures on a bench: what becomes of its fresh panel and of its virtual clock. -/

namespace TouchGesture

theorem Panel.log_offer {p q : Panel} {events : List TouchEvent} (unclamped : p.resolution = none)
    (accepted : device.offer events p = (.accepted, q)) :
    q.log.toList = p.log.toList ++ events := by
  induction events generalizing p with
  | nil =>
      obtain rfl : p = q := congrArg Prod.snd accepted
      rw [List.append_nil]
  | cons e rest ih =>
      obtain ⟨t, first, later⟩ := device.offer_cons_eq_accepted.mp accepted
      obtain ⟨still, log⟩ := touch_unclamped unclamped first
      rw [ih still later, log, Array.toList_push, List.append_assoc, List.singleton_append]

namespace Bench

theorem rig_hosts {σ : Type} (d : Device σ) : (rig d).Hosts d Bench.device where
  verdict _ _ := rfl
  touch _ _ := rfl
  sleep _ _ := rfl
  cancelled _ := rfl
  note _ _ := rfl

theorem rig_timed {σ : Type} (d : Device σ) : (rig d).Timed Bench.clock where
  touch _ _ := rfl
  sleep _ _ := rfl
  cancelled _ := rfl
  note _ _ := rfl

inductive Fared (max fingers : Nat) (script : List Act) : Except Stop Unit → Bench Panel → Prop
  | done {b : Bench Panel} :
      fingers ≤ max → b.device.log.toList = script.filterMap Act.touch? →
      b.clock = VirtualClock.sleepAll (script.filterMap Act.span?) {} →
      Fared max fingers script (.ok ()) b
  | crowded {b : Bench Panel} : max < fingers →
      Fared max fingers script (.error (.fault (.device (.noFreeSlot max)))) b

def fresh (max : Nat) : Bench Panel := ⟨Panel.ofSlots max, {}⟩

theorem fared_of_drive {max : Nat} {script : List Act} {trace : Trace} {ending : Except Stop Unit}
    {b : Bench Panel} {fingers : List Finger} {spots : List Position}
    (drive : Drive script trace ending)
    (visit : (Panel.ofSlots max).Visit fingers spots ending b.device)
    (told : Panel.device.Replays (Panel.ofSlots max) trace b.device)
    (timed : b.clock = VirtualClock.sleepAll (trace.filterMap Entry.span?) {}) :
    Fared max fingers.length script ending b := by
  have idle := Panel.idle_ofSlots max
  cases visit with
  | completed admitted _ =>
      cases drive with
      | completed =>
          -- the panel clamps nothing, so it has logged the script's touches as they are
          have log := Panel.log_offer rfl (Panel.device.replays_granted.mp told)
          refine .done (idle.admits_iff.mp admitted) log ?_
          rw [timed, List.filterMap_map]
          congr 2
          funext act
          cases act <;> rfl
  | cancelled _ _ => exact absurd drive Drive.not_cancelled
  | refused closed _ _ =>
      rw [idle.refusal_eq]
      exact .crowded (Nat.lt_of_not_le (mt idle.admits_iff.mpr closed))

theorem execute_fared (max : Nat) {p : Plan Float} (aligned : p.Aligned) :
    ∃ ending b, ((rig Panel.device).execute p).on (fresh max) = (ending, b) ∧
      Fared max p.fingers.toNat p.script ending b := by
  have hosts := rig_hosts Panel.device
  obtain ⟨ending, b, run, visit⟩ :=
    hosts.execute_visit (s := fresh max) (Panel.sound_ofSlots max) aligned rfl
  obtain ⟨trace, ending', b', record, run', drive⟩ :=
    (rig Panel.device).execute_unwatched p (fresh max)
  obtain ⟨rfl, rfl⟩ := Prod.mk.inj (run.symm.trans run')
  have told := (hosts.replays (Panel.ofSlots max)).unwatched.execute (s := (fresh max, [])) p rfl
  have timed := ((rig_timed Panel.device).told {}).unwatched.execute (s := (fresh max, [])) p rfl
  rw [record] at told timed
  rw [← p.length_fingerNames]
  exact ⟨_, b, run, fared_of_drive drive visit told timed⟩

theorem tap_fared (max : Nat) {point : Position} (finite : point.isFinite) (hold : Span) :
    ∃ ending b, ((rig Panel.device).tap point hold).on (fresh max) = (ending, b) ∧
      Fared max 1 (Act.tap point hold) ending b := by
  have hosts := rig_hosts Panel.device
  obtain ⟨ending, b, run, visit⟩ :=
    hosts.tap_visit (s := fresh max) (Panel.sound_ofSlots max) finite hold rfl
  obtain ⟨trace, ending', b', record, run', drive⟩ :=
    (rig Panel.device).tap_unwatched finite hold (fresh max)
  obtain ⟨rfl, rfl⟩ := Prod.mk.inj (run.symm.trans run')
  have told := (hosts.replays (Panel.ofSlots max)).unwatched.tap
    (s := (fresh max, [])) point hold rfl
  have timed := ((rig_timed Panel.device).told {}).unwatched.tap
    (s := (fresh max, [])) point hold rfl
  rw [record] at told timed
  exact ⟨_, b, run, fared_of_drive drive visit told timed⟩

end Bench

end TouchGesture
