import TouchGesture.Touch.Device

/-! Touches that are made one after another, whatever is answered to them. -/

namespace TouchGesture.Device

variable {σ : Type} (d : Device σ)

def answers : List TouchEvent → σ → List Verdict
  | [], _ => []
  | e :: rest, s => (d.touch e s).1 :: answers rest (d.touch e s).2

def after (events : List TouchEvent) (s : σ) : σ := events.foldl (fun t e => (d.touch e t).2) s

def accepted : List TouchEvent → σ → List TouchEvent
  | [], _ => []
  | e :: rest, s => (if (d.touch e s).1 = .accepted then [e] else []) ++
      accepted rest (d.touch e s).2

theorem length_answers (events : List TouchEvent) (s : σ) :
    (d.answers events s).length = events.length := by
  induction events generalizing s with
  | nil => rfl
  | cons e rest ih => simp [answers, ih]

theorem answers_take (events : List TouchEvent) (k : Nat) (s : σ) :
    d.answers (events.take k) s = (d.answers events s).take k := by
  induction events generalizing k s with
  | nil => simp [answers]
  | cons e rest ih =>
      cases k with
      | zero => rfl
      | succ k => simp [answers, ih]

/-- Every touch meets the device as the touches before it have left it. -/
theorem getElem?_answers (events : List TouchEvent) (k : Nat) (s : σ) :
    (d.answers events s)[k]? = events[k]?.map fun e =>
      (d.touch e (d.after (events.take k) s)).1 := by
  induction events generalizing k s with
  | nil => simp [answers]
  | cons e rest ih =>
      cases k with
      | zero => rfl
      | succ k => simp [answers, ih, after]

theorem answers_append (first second : List TouchEvent) (s : σ) :
    d.answers (first ++ second) s = d.answers first s ++ d.answers second (d.after first s) := by
  induction first generalizing s with
  | nil => rfl
  | cons e rest ih => simp [answers, ih, after]

theorem after_append (first second : List TouchEvent) (s : σ) :
    d.after (first ++ second) s = d.after second (d.after first s) :=
  List.foldl_append

theorem after_preserves (holds : σ → Prop) (step : ∀ e s, holds s → holds (d.touch e s).2)
    (events : List TouchEvent) {s : σ} (start : holds s) : holds (d.after events s) := by
  induction events generalizing s with
  | nil => exact start
  | cons e rest ih => exact ih (step e s start)

/-- What grows by one with each accepted touch and with no other counts the accepted touches. -/
theorem after_counts (holds : σ → Prop) (size : σ → Nat)
    (step : ∀ e s, holds s → holds (d.touch e s).2)
    (grows : ∀ e s, holds s →
      size (d.touch e s).2 = size s + if (d.touch e s).1 = .accepted then 1 else 0)
    (events : List TouchEvent) {s : σ} (start : holds s) :
    size (d.after events s) = size s + (d.answers events s).count .accepted := by
  induction events generalizing s with
  | nil => rfl
  | cons e rest ih =>
      have first : size (d.touch e s).2 = size s + if (d.touch e s).1 = .accepted then 1 else 0 :=
        grows e s start
      calc
        size (d.after rest (d.touch e s).2) =
            size (d.touch e s).2 + (d.answers rest (d.touch e s).2).count .accepted :=
          ih (step e s start)
        _ = size s + ((d.answers rest (d.touch e s).2).count .accepted +
            if (d.touch e s).1 = .accepted then 1 else 0) := by
          rw [first]
          omega
        _ = size s + (d.answers (e :: rest) s).count .accepted := by
          simp only [answers, List.count_cons, beq_iff_eq]

end TouchGesture.Device
