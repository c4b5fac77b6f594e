import TouchGesture.Proofs.Gesture.Dispatch
import TouchGesture.Proofs.Gesture.Invariant

/-! Rigs that hand their touches to a device. The device is a part of the rig's state, which the
time source, the token and the notes leave alone. -/

namespace TouchGesture

/-- Every touch of the rig is a touch of the device that `view` shows, and nothing else changes
it. -/
structure Rig.Hosts {σ δ : Type} (r : Rig σ) (d : Device δ) (view : σ → δ) : Prop where
  verdict : ∀ e s, (r.touch e s).1 = (d.touch e (view s)).1
  touch : ∀ e s, view (r.touch e s).2 = (d.touch e (view s)).2
  sleep : ∀ span s, view (r.sleep span s).2 = view s
  cancelled : ∀ s, view (r.cancelled s).2 = view s
  note : ∀ n s, view (r.note n s).2 = view s

theorem Device.rig_hosts {σ τ : Type} (d : Device σ) (sleep : Span → τ → τ)
    (cancelled : τ → Bool × τ) : (d.rig sleep cancelled).Hosts d Prod.fst where
  verdict _ _ := rfl
  touch _ _ := rfl
  sleep _ _ := rfl
  cancelled _ := rfl
  note _ _ := rfl

namespace Rig

variable {σ δ : Type} {r : Rig σ} {d : Device δ} {view : σ → δ}

theorem Hosts.unwatched (hosts : r.Hosts d view) : r.unwatched.Hosts d view where
  verdict := hosts.verdict
  touch := hosts.touch
  sleep := hosts.sleep
  cancelled _ := rfl
  note := hosts.note

theorem Hosts.on_touch (hosts : r.Hosts d view) {e : TouchEvent} {s : σ} {verdict : Verdict}
    {u : δ} (answer : d.touch e (view s) = (verdict, u)) :
    ∃ t, r.touch e s = (verdict, t) ∧ view t = u := by
  have first := hosts.verdict e s
  have second := hosts.touch e s
  rw [answer] at first second
  exact ⟨_, Prod.ext first rfl, second⟩

theorem Hosts.on_look (hosts : r.Hosts d view) {s : σ} {raised : Bool}
    (answer : (r.cancelled s).1 = raised) :
    ∃ t, r.cancelled s = (raised, t) ∧ view t = view s :=
  ⟨_, Prod.ext answer rfl, hosts.cancelled s⟩

theorem Hosts.on_note (hosts : r.Hosts d view) (n : Note) (s : σ) :
    ∃ t, r.note n s = ((), t) ∧ view t = view s :=
  ⟨_, rfl, hosts.note n s⟩

theorem Hosts.on_sleep (hosts : r.Hosts d view) (span : Span) (s : σ) :
    ∃ raised t, r.cancelled (r.sleep span s).2 = (raised, t) ∧ view t = view s := by
  refine ⟨_, _, rfl, ?_⟩
  rw [hosts.cancelled, hosts.sleep]

theorem Hosts.on_touchAll (hosts : r.Hosts d view) {events : List TouchEvent} {s : σ}
    {verdict : Verdict} {u : δ} (answer : d.offer events (view s) = (verdict, u)) :
    ∃ t, (r.touchAll events).on s = (verdict.ending, t) ∧ view t = u := by
  induction events generalizing s with
  | nil =>
      obtain ⟨rfl, rfl⟩ := Prod.mk.inj answer
      exact ⟨s, rfl, rfl⟩
  | cons e rest ih =>
      rcases first : d.touch e (view s) with ⟨verdict, u⟩
      obtain ⟨t, touched, rfl⟩ := hosts.on_touch first
      rw [Device.offer, first] at answer
      rw [on_touchAll_cons, touched]
      cases verdict with
      | accepted => exact ih answer
      | rejected refusal =>
          obtain ⟨rfl, rfl⟩ := Prod.mk.inj answer
          exact ⟨t, rfl, rfl⟩
      | crashed =>
          obtain ⟨rfl, rfl⟩ := Prod.mk.inj answer
          exact ⟨t, rfl, rfl⟩

theorem Hosts.touchAll_accepted (hosts : r.Hosts d view) {events : List TouchEvent} {s : σ}
    {u : δ} (accepted : d.offer events (view s) = (.accepted, u)) :
    ∃ t, (r.touchAll events).on s = (.ok (), t) ∧ view t = u :=
  hosts.on_touchAll accepted

theorem touchAll_append (front back : List TouchEvent) :
    r.touchAll (front ++ back) = (do r.touchAll front; r.touchAll back) := by
  rw [← follow_touches r [], List.map_append, follow_append, follow_touches, follow_touches]

theorem on_touchAll_traced {events : List TouchEvent} {s t : σ} (trace : Trace)
    (done : (r.touchAll events).on s = (.ok (), t)) :
    (r.traced.touchAll events).on (s, trace) =
      (.ok (), t, trace ++ events.map fun e => .touched e .accepted) := by
  induction events generalizing s trace with
  | nil =>
      obtain rfl : s = t := by simpa using done
      simp
  | cons e rest ih =>
      rw [on_touchAll_cons] at done ⊢
      rw [traced_touch]
      cases answer : (r.touch e s).1 with
      | accepted =>
          rw [answer] at done
          refine (ih _ done).trans ?_
          simp
      | rejected refusal =>
          rw [answer] at done
          cases done
      | crashed =>
          rw [answer] at done
          cases done

theorem Hosts.touchAll_refused (hosts : r.Hosts d view) {front : List TouchEvent}
    (back : List TouchEvent) {e : TouchEvent} {refusal : Refusal} {s : σ} {u v : δ}
    (accepted : d.offer front (view s) = (.accepted, u))
    (refused : d.touch e u = (.rejected refusal, v)) :
    ∃ t, (r.touchAll (front ++ e :: back)).on s = (.error (.fault (.device refusal)), t) ∧
      (∀ trace, (r.traced.touchAll (front ++ e :: back)).on (s, trace) =
        (.error (.fault (.device refusal)), t,
          trace ++ front.map (fun e => .touched e .accepted) ++
            [.touched e (.rejected refusal)])) ∧
      view t = v := by
  obtain ⟨t, ran, rfl⟩ := hosts.touchAll_accepted accepted
  obtain ⟨w, touched, last⟩ := hosts.on_touch refused
  refine ⟨w, ?_, fun trace => ?_, last⟩
  · rw [touchAll_append, Run.on_bind, ran]
    dsimp only
    rw [on_touchAll_cons, touched]
    rfl
  · rw [touchAll_append, Run.on_bind, on_touchAll_traced trace ran]
    dsimp only
    rw [on_touchAll_cons, traced_touch, touched]
    rfl

/-- A gesture that is not withheld does to the device what following its script does. -/
theorem Hosts.execute_follows (hosts : r.Hosts d view) {s : σ} (calm : (r.cancelled s).1 = false)
    (p : Plan Float) :
    ∃ u ending t v, view u = view s ∧ (r.follow p.fingerNames p.script).on u = (ending, t) ∧
      (r.execute p).on s = (ending, v) ∧ view v = view t := by
  obtain ⟨t, looked, same⟩ := hosts.on_look calm
  obtain ⟨u, noted, kept⟩ := hosts.on_note
    (.gestureStart p.fingers.toNat p.steps.toNat (UInt64.ofNat p.pause.microseconds)) t
  rcases followed : (r.follow p.fingerNames p.script).on u with ⟨ending, v⟩
  rw [on_execute, looked]
  simp only [noted, Run.on_bind]
  rw [followed]
  cases ending with
  | error stop => exact ⟨u, _, v, v, kept.trans same, followed, rfl, rfl⟩
  | ok => exact ⟨u, _, v, _, kept.trans same, followed, rfl, hosts.note _ v⟩

theorem Hosts.tap_follows (hosts : r.Hosts d view) {s : σ} (calm : (r.cancelled s).1 = false)
    {point : Position} (finite : point.isFinite) (hold : Span) :
    ∃ u, view u = view s ∧
      (r.tap point hold).on s = (r.follow [⟨0⟩] (Act.tap point hold)).on u := by
  obtain ⟨t, looked, same⟩ := hosts.on_look calm
  obtain ⟨u, noted, kept⟩ := hosts.on_note (.tap point) t
  refine ⟨u, kept.trans same, ?_⟩
  rw [r.on_tap finite, looked]
  simp only [noted]

theorem Hosts.keeps (hosts : r.Hosts d view) {Inv : δ → Prop}
    (kept : ∀ e u, Inv u → Inv (d.touch e u).2) : r.Keeps fun s => Inv (view s) where
  touch e s start := by
    rw [hosts.touch]
    exact kept e _ start
  sleep span s start := by rwa [hosts.sleep]
  cancelled s start := by rwa [hosts.cancelled]
  note n s start := by rwa [hosts.note]

end Rig

end TouchGesture
