import Mathlib.Computability.RegularExpressions
import TouchGesture.Proofs.Touch.Log

/-! The life of a finger on a device: it goes down, moves any number of times and goes up, over and
over. Panels and recorders log no other order of touches, and they have in contact the fingers that
have not gone up since they last went down. -/

namespace TouchGesture

namespace Phase

open RegularExpression

def presence : RegularExpression Phase := char .down * star (char .move)

def visits : RegularExpression Phase := star (presence * char .up)

def lifecycle : RegularExpression Phase := visits * (1 + presence)

variable {word : List Phase}

theorem down_mem_presence : [.down] ∈ presence.matches' :=
  Language.append_mem_mul (Set.mem_singleton [Phase.down]) (Language.nil_mem_kstar _)

theorem presence_move (here : word ∈ presence.matches') :
    word ++ [.move] ∈ presence.matches' := by
  obtain ⟨first, down, moves, many, rfl⟩ := Language.mem_mul.mp here
  have more : moves ++ [.move] ∈ (star (char Phase.move)).matches' := by
    apply kstar_mul_le_kstar (a := (char Phase.move).matches')
    exact Language.append_mem_mul many (Set.mem_singleton [Phase.move])
  rw [List.append_assoc]
  exact Language.append_mem_mul down more

theorem visits_down (away : word ∈ visits.matches') :
    word ++ [.down] ∈ (visits * presence).matches' :=
  Language.append_mem_mul away down_mem_presence

theorem visits_move (here : word ∈ (visits * presence).matches') :
    word ++ [.move] ∈ (visits * presence).matches' := by
  obtain ⟨before, past, now, present, rfl⟩ := Language.mem_mul.mp here
  rw [List.append_assoc]
  exact Language.append_mem_mul past (presence_move present)

theorem visits_up (here : word ∈ (visits * presence).matches') :
    word ++ [.up] ∈ visits.matches' := by
  obtain ⟨before, past, now, present, rfl⟩ := Language.mem_mul.mp here
  have visit : now ++ [.up] ∈ (presence * char Phase.up).matches' :=
    Language.append_mem_mul present (Set.mem_singleton [Phase.up])
  rw [List.append_assoc]
  apply kstar_mul_le_kstar (a := (presence * char Phase.up).matches')
  exact Language.append_mem_mul past visit

theorem lifecycle_of_away (away : word ∈ visits.matches') : word ∈ lifecycle.matches' := by
  rw [← List.append_nil word]
  exact Language.append_mem_mul away (.inl rfl)

theorem lifecycle_of_here (here : word ∈ (visits * presence).matches') :
    word ∈ lifecycle.matches' := by
  obtain ⟨before, past, now, present, rfl⟩ := Language.mem_mul.mp here
  exact Language.append_mem_mul past (.inr present)

end Phase

section Logs

def touchesOf (f : Finger) (log : List TouchEvent) : List TouchEvent :=
  log.filter fun e => e.finger = f

def phasesOf (f : Finger) (log : List TouchEvent) : List Phase := (touchesOf f log).map Touch.phase

def lastOf? (f : Finger) (log : List TouchEvent) : Option TouchEvent := (touchesOf f log).getLast?

variable {f : Finger} {e : TouchEvent} {log : List TouchEvent} {down : List Finger}

theorem touchesOf_push_self (e : TouchEvent) (log : List TouchEvent) :
    touchesOf e.finger (log ++ [e]) = touchesOf e.finger log ++ [e] := by
  simp [touchesOf]

theorem touchesOf_push_other (other : f ≠ e.finger) :
    touchesOf f (log ++ [e]) = touchesOf f log := by
  simp [touchesOf, Ne.symm other]

theorem lastOf?_push_self (e : TouchEvent) (log : List TouchEvent) :
    lastOf? e.finger (log ++ [e]) = some e := by
  rw [lastOf?, touchesOf_push_self, List.getLast?_concat]

theorem lastOf?_push_other (other : f ≠ e.finger) : lastOf? f (log ++ [e]) = lastOf? f log := by
  rw [lastOf?, touchesOf_push_other other, lastOf?]

theorem Touch.mem_settle_self (suits : e.Suits down) : e.finger ∈ e.settle down ↔
    e.phase ≠ .up := by
  cases e with
  | down g point => simp [settle, finger, phase, Finger.mem_insertBy]
  | move g point => simpa [settle, finger, phase, Suits] using suits
  | up g => simp [settle, finger, phase]

theorem Touch.mem_settle_other (other : f ≠ e.finger) : f ∈ e.settle down ↔ f ∈ down := by
  cases e with
  | down g point => simpa [settle, Finger.mem_insertBy, finger] using fun same => absurd same other
  | move g point => rfl
  | up g => simpa [settle, finger] using fun _ => other

/-- Each finger's part of the log is a life, and those of the fingers in contact are not over. -/
structure Lived (log : List TouchEvent) (down : List Finger) : Prop where
  away : ∀ f, f ∉ down → phasesOf f log ∈ Phase.visits.matches'
  here : ∀ f, f ∈ down → phasesOf f log ∈ (Phase.visits * Phase.presence).matches'
  last : ∀ f, f ∈ down ↔ ∃ e, lastOf? f log = some e ∧ e.phase ≠ .up

theorem lived_nil : Lived [] [] where
  away f _ := Language.nil_mem_kstar _
  here := nofun
  last f := by simp [lastOf?, touchesOf]

namespace Lived

theorem phases_away (lived : Lived log down) (suits : e.Suits down) (lifted : e.phase = .up) :
    phasesOf e.finger (log ++ [e]) ∈ Phase.visits.matches' := by
  rw [phasesOf, touchesOf_push_self, List.map_append]
  cases e with
  | down g point => cases lifted
  | move g point => cases lifted
  | up g => exact Phase.visits_up (lived.here g suits)

theorem phases_here (lived : Lived log down) (suits : e.Suits down) (on : e.phase ≠ .up) :
    phasesOf e.finger (log ++ [e]) ∈ (Phase.visits * Phase.presence).matches' := by
  rw [phasesOf, touchesOf_push_self, List.map_append]
  cases e with
  | down g point => exact Phase.visits_down (lived.away g suits)
  | move g point => exact Phase.visits_move (lived.here g suits)
  | up g => exact absurd rfl on

theorem push (lived : Lived log down) (suits : e.Suits down) :
    Lived (log ++ [e]) (e.settle down) where
  away := by
    intro f gone
    by_cases same : f = e.finger
    · subst same
      rw [Touch.mem_settle_self suits, not_not] at gone
      exact lived.phases_away suits gone
    · rw [Touch.mem_settle_other same] at gone
      rw [phasesOf, touchesOf_push_other same]
      exact lived.away f gone
  here := by
    intro f present
    by_cases same : f = e.finger
    · subst same
      rw [Touch.mem_settle_self suits] at present
      exact lived.phases_here suits present
    · rw [Touch.mem_settle_other same] at present
      rw [phasesOf, touchesOf_push_other same]
      exact lived.here f present
  last := by
    intro f
    by_cases same : f = e.finger
    · subst same
      simp [Touch.mem_settle_self suits, lastOf?_push_self]
    · rw [Touch.mem_settle_other same, lastOf?_push_other same]
      exact lived.last f

theorem lifecycle (lived : Lived log down) (f : Finger) :
    phasesOf f log ∈ Phase.lifecycle.matches' := by
  by_cases present : f ∈ down
  · exact Phase.lifecycle_of_here (lived.here f present)
  · exact Phase.lifecycle_of_away (lived.away f present)

end Lived

end Logs

/-- The log of a device that has accepted a number of touches tells every finger's life, and the
device has a finger in contact if that was not at its end. -/
structure Lifelike (log : Array TouchEvent) (down : Finger → Prop) (accepted : Nat) : Prop where
  lifecycle : ∀ f, phasesOf f log.toList ∈ Phase.lifecycle.matches'
  down_iff : ∀ f, down f ↔ ∃ e, lastOf? f log.toList = some e ∧ e.phase ≠ .up
  size : log.size = accepted

namespace Panel

variable {p : Panel}

structure Chronicled (p : Panel) : Prop where
  lived : Lived p.log.toList p.fingers
  point : ∀ c ∈ p.contacts, ∃ e, lastOf? c.finger p.log.toList = some e ∧
    e.point? = some c.point

theorem chronicled_fresh (max : Nat) (resolution : Option Resolution) :
    (fresh max resolution).Chronicled := ⟨lived_nil, nofun⟩

theorem Logs.chronicled {told : TouchEvent} {q : Panel} (logs : Logs p told q)
    (chronicled : p.Chronicled) : q.Chronicled where
  lived := by
    rw [logs.log, Array.toList_push, logs.fingers]
    exact chronicled.lived.push logs.suits
  point := by
    intro c member
    rw [logs.log, Array.toList_push]
    rcases logs.contacts c member with ⟨same, here⟩ | ⟨other, old⟩
    · exact ⟨told, same ▸ lastOf?_push_self told _, here⟩
    · rw [lastOf?_push_other other]
      exact chronicled.point c old

theorem Chronicled.touch (chronicled : p.Chronicled) (bounded : p.Bounded) (e : TouchEvent) :
    (touch e p).2.Chronicled := by
  have entry := touch_entry bounded e
  generalize Panel.touch e p = result at entry ⊢
  cases entry with
  | refused _ => exact chronicled
  | logged logs => exact logs.chronicled chronicled

theorem size_log_touch (bounded : p.Bounded) (e : TouchEvent) :
    (touch e p).2.log.size = p.log.size + if (touch e p).1 = .accepted then 1 else 0 := by
  have entry := touch_entry bounded e
  generalize touch e p = result at entry ⊢
  cases entry with
  | refused _ => rfl
  | logged logs => simp [logs.log]

theorem lifelike_after (max : Nat) {resolution : Option Resolution}
    (bounded : ∀ r, resolution = some r → r.Bounded) (events : List TouchEvent) :
    Lifelike (device.after events (fresh max resolution)).log
      (fun f => (device.after events (fresh max resolution)).isDown f)
      ((device.answers events (fresh max resolution)).count .accepted) ∧
    (device.after events (fresh max resolution)).Chronicled := by
  have start : (fresh max resolution).Chronicled ∧ (fresh max resolution).Bounded :=
    ⟨chronicled_fresh max resolution, bounded_fresh bounded⟩
  have step : ∀ e p, Chronicled p ∧ p.Bounded →
      Chronicled (device.touch e p).2 ∧ (device.touch e p).2.Bounded := by
    rintro e p ⟨chronicled, safe⟩
    exact ⟨chronicled.touch safe e, touch_bounded safe e⟩
  have last := (device.after_preserves _ step events start).1
  have size := device.after_counts _ (fun p => p.log.size) step
    (fun e p held => size_log_touch held.2 e) events start
  refine ⟨⟨last.lived.lifecycle, ?_, ?_⟩, last⟩
  · intro f
    rw [← mem_fingers]
    exact last.lived.last f
  · rw [size]
    exact Nat.zero_add _

end Panel

namespace Recorder

variable {r : Recorder}

def fresh (failAt : Option Nat) : Recorder := { failAt }

def afterClears (runs : List (List TouchEvent)) (r : Recorder) : Recorder :=
  runs.foldl (fun s events => (device.after events s).clear) r

theorem afterClears_fresh (failAt : Option Nat) (runs : List (List TouchEvent)) :
    (afterClears runs (fresh failAt)).events = #[] ∧
    (afterClears runs (fresh failAt)).down = [] := by
  rcases List.eq_nil_or_concat runs with rfl | ⟨earlier, last, rfl⟩
  · exact ⟨rfl, rfl⟩
  · simp [afterClears, clear]

theorem lived_touch (lived : Lived r.events.toList r.down) (e : TouchEvent) :
    Lived (touch e r).2.events.toList (touch e r).2.down := by
  have outcome := r.touch_outcome e
  generalize touch e r = result at outcome ⊢
  cases outcome with
  | injected _ => exact lived
  | misused _ _ => exact lived
  | recorded _ suits =>
      simp only [record, Array.toList_push]
      exact lived.push suits

theorem size_events_touch (r : Recorder) (e : TouchEvent) :
    (touch e r).2.events.size = r.events.size + if (touch e r).1 = .accepted then 1 else 0 := by
  have outcome := r.touch_outcome e
  generalize touch e r = result at outcome ⊢
  cases outcome with
  | injected _ => rfl
  | misused _ _ => rfl
  | recorded _ _ => simp [record]

theorem lifelike_after (failAt : Option Nat) (earlier : List (List TouchEvent))
    (events : List TouchEvent) :
    Lifelike (device.after events (afterClears earlier (fresh failAt))).events
      (fun f => f ∈ (device.after events (afterClears earlier (fresh failAt))).down)
      ((device.answers events (afterClears earlier (fresh failAt))).count .accepted) := by
  obtain ⟨blank, nobody⟩ := afterClears_fresh failAt earlier
  have start : Lived (afterClears earlier (fresh failAt)).events.toList
      (afterClears earlier (fresh failAt)).down := by
    rw [blank, nobody]
    exact lived_nil
  have last := device.after_preserves (fun r => Lived r.events.toList r.down)
    (fun e r lived => lived_touch lived e) events start
  have size := device.after_counts (fun r => Lived r.events.toList r.down) (fun r => r.events.size)
    (fun e r lived => lived_touch lived e) (fun e r _ => r.size_events_touch e) events start
  refine ⟨last.lifecycle, last.last, ?_⟩
  rw [size, blank]
  exact Nat.zero_add _

end Recorder

/-- Whatever touches are made, and whichever of them are refused, every finger's part of the log is
a life, the device has in contact the fingers whose last touch was not a lift, and the log has one
touch for each that was accepted. A panel has every contact at the point where its finger was last.
A recorder tells only what came since it was last cleared. -/
theorem touches_lifelike (max : Nat) {resolution : Option Resolution}
    (bounded : ∀ r, resolution = some r → r.Bounded) (failAt : Option Nat)
    (earlier : List (List TouchEvent)) (events : List TouchEvent) :
    let p := Panel.fresh max resolution
    let q := Panel.device.after events p
    let r := Recorder.afterClears earlier (Recorder.fresh failAt)
    let t := Recorder.device.after events r
    (Lifelike q.log (fun f => q.isDown f) ((Panel.device.answers events p).count .accepted) ∧
      ∀ c ∈ q.contacts, ∃ e, lastOf? c.finger q.log.toList = some e ∧
        e.point? = some c.point) ∧
    Lifelike t.events (fun f => f ∈ t.down)
      ((Recorder.device.answers events r).count .accepted) := by
  intro p q r t
  obtain ⟨panel, chronicled⟩ := Panel.lifelike_after max bounded events
  exact ⟨⟨panel, chronicled.point⟩, Recorder.lifelike_after failAt earlier events⟩

/-- Finger 7 comes twice, and finger 3 not at all: on a panel of one slot it finds no room, and the
recorder, which was cleared before, refuses its second touch. -/
theorem touches_lifelike_one_slot :
    ∃ (q : Panel) (t : Recorder), q.log.toList =
        [.down ⟨7⟩ ⟨100, 0⟩, .move ⟨7⟩ ⟨5, 6⟩, .up ⟨7⟩,
          .down ⟨7⟩ ⟨1, 2⟩] ∧
      Lifelike q.log (fun f => q.isDown f) 4 ∧
      t.events.toList = [.down ⟨7⟩ ⟨300, -4⟩, .move ⟨7⟩ ⟨5, 6⟩, .up ⟨7⟩,
        .down ⟨7⟩ ⟨1, 2⟩] ∧
      Lifelike t.events (fun f => f ∈ t.down) 4 := by
  have bounded : ∀ r, some (⟨100, 50⟩ : Resolution) = some r → r.Bounded := by
    rintro r ⟨⟩
    constructor <;> decide
  have both :=
    touches_lifelike 1 bounded (some 2) [[.up ⟨7⟩, .up ⟨7⟩], [.down ⟨9⟩ ⟨0, 0⟩]]
    [.down ⟨7⟩ ⟨300, -4⟩, .down ⟨3⟩ ⟨0, 0⟩, .move ⟨7⟩ ⟨5, 6⟩, .up ⟨7⟩,
      .move ⟨7⟩ ⟨0, 0⟩, .down ⟨7⟩ ⟨1, 2⟩]
  exact ⟨_, _, by decide +kernel, both.1.1, by decide +kernel, both.2⟩

end TouchGesture
