import TouchGesture.Proofs.Touch.Recorder
import TouchGesture.Proofs.Touch.Sequence

/-! A recorder that is told to refuse one touch. It answers and records all the others as if that
one had never been made. -/

namespace TouchGesture.Recorder

structure SameRecord (r t : Recorder) : Prop where
  events : r.events = t.events
  down : r.down = t.down

variable {r t : Recorder} {events : List TouchEvent}

theorem SameRecord.touch (same : SameRecord r t) (spared : ¬ r.Due) (spared' : ¬ t.Due)
    (e : TouchEvent) :
    (device.touch e r).1 = (device.touch e t).1 ∧
    SameRecord (device.touch e r).2 (device.touch e t).2 := by
  by_cases suits : e.Suits r.down
  · have suits' : e.Suits t.down := same.down ▸ suits
    simp only [device, touch_of_suits spared suits, touch_of_suits spared' suits', true_and]
    exact ⟨congrArg (Array.push · e) same.events, congrArg e.settle same.down⟩
  · have unsuited : ¬ e.Suits t.down := same.down ▸ suits
    simp only [device, touch_of_misuse spared suits, touch_of_misuse spared' unsuited, true_and]
    exact ⟨same.events, same.down⟩

/-- As long as no touch is due, it makes no difference what has been counted. -/
theorem SameRecord.run (same : SameRecord r t) (spared : r.Spares events.length)
    (spared' : t.Spares events.length) :
    device.answers events r = device.answers events t ∧
      SameRecord (device.after events r) (device.after events t) := by
  induction events generalizing r t with
  | nil => exact ⟨rfl, same⟩
  | cons e rest ih =>
      have first := same.touch spared.not_due spared'.not_due e
      have others := ih first.2 (spared.touch e) (spared'.touch e)
      rw [Device.answers, Device.answers, first.1, others.1]
      exact ⟨rfl, others.2⟩

theorem failAt_after (events : List TouchEvent) (r : Recorder) :
    (device.after events r).failAt = r.failAt := by
  apply device.after_preserves (fun s => s.failAt = r.failAt)
  · intro e s unchanged
    exact (touch_failAt s e).trans unchanged
  · rfl

theorem attempts_after (events : List TouchEvent) (r : Recorder) :
    (device.after events r).attempts = r.attempts + events.length := by
  induction events generalizing r with
  | nil => rfl
  | cons e rest ih =>
      calc
        (device.after rest (device.touch e r).2).attempts =
          (device.touch e r).2.attempts + rest.length := ih _
        _ = r.attempts + (e :: rest).length := by
          rw [attempts_touch, List.length_cons]
          omega

section Injected

variable {n : Nat}

theorem past_new : new.Past := nofun

theorem sameRecord_failingAt (n : Nat) : SameRecord (new.failingAt n) new := ⟨rfl, rfl⟩

theorem attempts_after_failingAt (events : List TouchEvent) (n : Nat) :
    (device.after events (new.failingAt n)).attempts = events.length := by
  rw [attempts_after]
  exact Nat.zero_add _

theorem spares_failingAt {k : Nat} (outside : n = 0 ∨ k < n) : (new.failingAt n).Spares k := by
  intro m number
  have same : n = m := Option.some.inj number
  change m ≤ 0 ∨ 0 + k < m
  omega

theorem SameRecord.eq_failingAt (same : SameRecord r t) (counted : r.attempts = t.attempts)
    (told : r.failAt = some n) : r = t.failingAt n := by
  cases r
  cases t
  simp only [failingAt, mk.injEq]
  exact ⟨same.events, same.down, told, counted⟩

theorem run_due (due : r.Due) (e : TouchEvent) (events : List TouchEvent) :
    device.answers (e :: events) r =
      .rejected (.injected (r.attempts + 1)) :: device.answers events r.counted ∧
      device.after (e :: events) r = device.after events r.counted := by
  have refused : device.touch e r = (.rejected (.injected (r.attempts + 1)), r.counted) :=
    touch_of_due due e
  rw [Device.answers, Device.after, List.foldl_cons, refused]
  exact ⟨rfl, rfl⟩

theorem run_injected (before behind : List TouchEvent) (e : TouchEvent) :
    device.answers (before ++ e :: behind) (new.failingAt (before.length + 1)) =
        device.answers before new ++
          .rejected (.injected (before.length + 1)) :: device.answers behind
            (device.after before new) ∧
      SameRecord (device.after (before ++ e :: behind) (new.failingAt (before.length + 1)))
        (device.after (before ++ behind) new) := by
  have early : (new.failingAt (before.length + 1)).Spares before.length :=
    spares_failingAt (.inr (Nat.lt_succ_self _))
  have first := (sameRecord_failingAt _).run early (past_new.spares _)
  have counted := attempts_after_failingAt before (before.length + 1)
  have due : (device.after before (new.failingAt (before.length + 1))).Due := by
    rw [Due, failAt_after, counted]
    rfl
  have refused := run_due due e behind
  have same : SameRecord (device.after before (new.failingAt (before.length + 1))).counted
      (device.after before new) := ⟨first.2.events, first.2.down⟩
  have past : (device.after before new).Past := by
    intro m number
    rw [failAt_after] at number
    cases number
  have second := same.run (due.past_counted.spares behind.length) (past.spares behind.length)
  rw [Device.answers_append, Device.after_append, Device.after_append, refused.1, refused.2,
    counted, first.1, second.1]
  exact ⟨rfl, second.2⟩

theorem run_spared (outside : n = 0 ∨ events.length < n) :
    device.answers events (new.failingAt n) = device.answers events new ∧
      device.after events (new.failingAt n) = (device.after events new).failingAt n := by
  have same := (sameRecord_failingAt n).run (spares_failingAt outside) (past_new.spares _)
  refine ⟨same.1, same.2.eq_failingAt ?_ (failAt_after events _)⟩
  rw [attempts_after, attempts_after]
  rfl

section Middle

variable {α : Type}

theorem exists_split {k : Nat} {xs : List α} (inside : k < xs.length) :
    ∃ before x behind, xs = before ++ x :: behind ∧ before.length = k := by
  refine ⟨xs.take k, xs[k], xs.drop (k + 1), ?_, List.length_take_of_le (Nat.le_of_lt inside)⟩
  rw [← List.drop_eq_getElem_cons, List.take_append_drop]

theorem eraseIdx_middle (before behind : List α) (x : α) :
    (before ++ x :: behind).eraseIdx before.length = before ++ behind := by
  simp [List.eraseIdx_append_of_length_le]

end Middle

/-- A recorder that is told to refuse the `n`-th touch counts every touch. If there is an `n`-th one
it is refused, and everything else is answered and recorded as by a recorder that is told nothing
and never meets that touch. If there is none, nothing is different. -/
theorem injection_erases (events : List TouchEvent) (n : Nat) :
    (device.after events (new.failingAt n)).attempts = events.length ∧
    (1 ≤ n ∧ n ≤ events.length →
      (device.answers events (new.failingAt n))[n - 1]? = some (.rejected (.injected n)) ∧
      (device.answers events (new.failingAt n)).eraseIdx (n - 1) =
        device.answers (events.eraseIdx (n - 1)) new ∧
      SameRecord (device.after events (new.failingAt n))
        (device.after (events.eraseIdx (n - 1)) new)) ∧
    (¬ (1 ≤ n ∧ n ≤ events.length) →
      device.answers events (new.failingAt n) = device.answers events new ∧
      device.after events (new.failingAt n) = (device.after events new).failingAt n) := by
  refine ⟨attempts_after_failingAt events n, ?_, ?_⟩
  · intro inside
    obtain ⟨before, e, behind, rfl, position⟩ :=
      exists_split (k := n - 1) (by omega : n - 1 < events.length)
    obtain rfl : before.length + 1 = n := by omega
    have run := run_injected before behind e
    have place : (device.answers before new).length = before.length :=
      device.length_answers before new
    have erased := eraseIdx_middle (device.answers before new)
      (device.answers behind (device.after before new)) (.rejected (.injected (before.length + 1)))
    rw [place, ← device.answers_append] at erased
    rw [Nat.add_sub_cancel, eraseIdx_middle, run.1]
    refine ⟨?_, erased, run.2⟩
    rw [← place, List.getElem?_append_right (Nat.le_refl _), Nat.sub_self]
    rfl
  · intro outside
    exact run_spared (by omega)

/-- Without its press a finger neither moves nor goes up, but it may be pressed later. -/
theorem injection_erases_press :
    device.answers [.down ⟨7⟩ ⟨1, 2⟩, .move ⟨7⟩ ⟨3, 4⟩, .up ⟨7⟩,
      .down ⟨7⟩ ⟨5, 6⟩] (new.failingAt 1) =
      [.rejected (.injected 1), .rejected (.notDown ⟨7⟩), .rejected (.notDown ⟨7⟩),
        .accepted] ∧
    (device.answers [.down ⟨7⟩ ⟨1, 2⟩, .move ⟨7⟩ ⟨3, 4⟩, .up ⟨7⟩,
      .down ⟨7⟩ ⟨5, 6⟩] (new.failingAt 1)).eraseIdx 0 =
      device.answers [.move ⟨7⟩ ⟨3, 4⟩, .up ⟨7⟩, .down ⟨7⟩ ⟨5, 6⟩] new :=
  ⟨by decide, ((injection_erases _ 1).2.1 (by decide)).2.1⟩

end Injected

end TouchGesture.Recorder
