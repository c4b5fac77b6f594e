import Mathlib.Algebra.Ring.Nat
import Mathlib.Data.List.Chain
import TouchGesture.Clock

/-! How the time of a virtual clock passes. Its nanoseconds are counted in 64 bits, and a span that
needs more is cut to what they hold; but a sum that needs more wraps around. -/

namespace TouchGesture.VirtualClock

theorem toNat_ticks (s : Span) : (ticks s).toNat = min s.nanoseconds (UInt64.size - 1) := by
  rw [ticks]
  exact UInt64.toNat_ofNat_of_lt (by unfold UInt64.size; omega)

theorem nanoseconds_now (c : VirtualClock) : c.now.nanoseconds = c.elapsed.toNat := by
  have counted := c.elapsed.toNat_lt_size
  have short : c.elapsed.toNat < Span.limit := by
    unfold Span.limit
    omega
  rw [now, Span.ofNanoseconds, dif_pos short]

def sleepAll (spans : List Span) (c : VirtualClock) : VirtualClock :=
  spans.foldl (fun c span => c.sleep span) c

theorem sleepAll_append (front back : List Span) (c : VirtualClock) :
    c.sleepAll (front ++ back) = (c.sleepAll front).sleepAll back := List.foldl_append

theorem sleepAll_replicate (n : Nat) (span : Span) (c : VirtualClock) :
    c.sleepAll (List.replicate n span) =
      ⟨c.elapsed + UInt64.ofNat n * ticks span, c.sleeps + UInt64.ofNat n⟩ := by
  induction n generalizing c with
  | zero => simp [sleepAll]
  | succ n ih =>
      have next : c.sleepAll (List.replicate (n + 1) span) =
          (c.sleep span).sleepAll (List.replicate n span) := rfl
      rw [next, ih]
      simp only [sleep, fastForward, UInt64.ofNat_add, mk.injEq]
      constructor
      · grind
      · grind

theorem elapsed_sleepAll_replicate (n : Nat) (span : Span) (c : VirtualClock) :
    (c.sleepAll (List.replicate n span)).elapsed.toNat =
      (c.elapsed.toNat + n * min span.nanoseconds (UInt64.size - 1)) % UInt64.size := by
  rw [sleepAll_replicate, UInt64.toNat_add, UInt64.toNat_mul, UInt64.toNat_ofNat', toNat_ticks,
    Nat.add_mod_mod, Nat.add_mod, Nat.mod_mul_mod, ← Nat.add_mod]

theorem sleeps_sleepAll_replicate (n : Nat) (span : Span) (c : VirtualClock) :
    (c.sleepAll (List.replicate n span)).sleeps.toNat = (c.sleeps.toNat + n) % UInt64.size := by
  rw [sleepAll_replicate, UInt64.toNat_add, UInt64.toNat_ofNat', Nat.add_mod_mod]

inductive Advance where
  | sleep (span : Span)
  | forward (span : Span)

def Advance.span : Advance → Span
  | .sleep span | .forward span => span

def advance (c : VirtualClock) : Advance → VirtualClock
  | .sleep span => c.sleep span
  | .forward span => c.fastForward span

/-- What the clock shows at first and after every advance. -/
def shown (c : VirtualClock) : List Advance → List Span
  | [] => [c.now]
  | a :: rest => c.now :: (c.advance a).shown rest

theorem elapsed_advance (c : VirtualClock) (a : Advance) :
    (c.advance a).elapsed.toNat =
      (c.elapsed.toNat + min a.span.nanoseconds (UInt64.size - 1)) % UInt64.size := by
  rw [← toNat_ticks]
  cases a <;> exact UInt64.toNat_add ..

theorem le_now_advance_iff (c : VirtualClock) (a : Advance) :
    c.now.nanoseconds ≤ (c.advance a).now.nanoseconds ↔
      c.elapsed.toNat + min a.span.nanoseconds (UInt64.size - 1) < UInt64.size := by
  have counted := c.elapsed.toNat_lt_size
  have cut : min a.span.nanoseconds (UInt64.size - 1) < UInt64.size := by
    unfold UInt64.size
    omega
  rw [nanoseconds_now, nanoseconds_now, elapsed_advance]
  generalize min a.span.nanoseconds (UInt64.size - 1) = n at cut ⊢
  by_cases fits : c.elapsed.toNat + n < UInt64.size
  · rw [Nat.mod_eq_of_lt fits]
    omega
  · have wrapped : (c.elapsed.toNat + n) % UInt64.size = c.elapsed.toNat + n - UInt64.size := by
      rw [Nat.mod_eq_sub_mod (Nat.le_of_not_lt fits), Nat.mod_eq_of_lt (by omega)]
    rw [wrapped]
    omega

theorem shown_cons (c : VirtualClock) (advances : List Advance) :
    ∃ later, c.shown advances = c.now :: later := by
  cases advances with
  | nil => exact ⟨_, rfl⟩
  | cons a rest => exact ⟨_, rfl⟩

/-- The time shown never goes back exactly as long as all the advances together, each cut to 64
bits, do not overflow 64 bits. -/
theorem shown_forward_iff (c : VirtualClock) (advances : List Advance) :
    (c.shown advances).IsChain (fun s t => s.nanoseconds ≤ t.nanoseconds) ↔
      c.elapsed.toNat + (advances.map fun a => min a.span.nanoseconds (UInt64.size - 1)).sum <
        UInt64.size := by
  induction advances generalizing c with
  | nil =>
      have counted := c.elapsed.toNat_lt_size
      simpa [shown] using counted
  | cons a rest ih =>
      obtain ⟨later, next⟩ := (c.advance a).shown_cons rest
      have step := c.le_now_advance_iff a
      have tail := ih (c.advance a)
      rw [next, elapsed_advance] at tail
      rw [shown, next, List.isChain_cons_cons, step, tail, List.map_cons, List.sum_cons]
      constructor
      · rintro ⟨fits, all⟩
        rw [Nat.mod_eq_of_lt fits] at all
        omega
      · intro all
        have fits : c.elapsed.toNat + min a.span.nanoseconds (UInt64.size - 1) < UInt64.size := by
          omega
        rw [Nat.mod_eq_of_lt fits]
        exact ⟨fits, by omega⟩

/-- After the longest time that it can show, one nanosecond of sleep sets a clock back to zero. -/
theorem shown_back_to_zero :
    ¬ (({} : VirtualClock).shown
      [.sleep ⟨18446744073709551615, by decide⟩, .sleep ⟨1, by decide⟩]).IsChain
      (fun s t => s.nanoseconds ≤ t.nanoseconds) := by
  decide

end TouchGesture.VirtualClock
