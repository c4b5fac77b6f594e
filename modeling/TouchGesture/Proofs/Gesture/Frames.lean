import TouchGesture.Proofs.Gesture.Endpoints

/-! Which frames of a plan lie on the screen at all: a finger that goes straight goes ever farther,
so that its last frame decides. -/

namespace TouchGesture

namespace Double

def way (n : ℕ) (s e : ℚ) : ℚ := rounded (rounded (e - s) / n) * n

/-- The last step overflows neither on its way nor where it arrives. -/
def Arrives (n : ℕ) (s e : ℚ) : Prop :=
  |way n s e| < limit ∧ |s + rounded (way n s e)| < limit

section Step

variable {s d k : Float}

/-- What overflows on its way is not finite where it arrives. -/
theorem isFinite_step_iff (start : s.isFinite) (delta : d.isFinite) (count : k.isFinite) :
    (s + d * k).isFinite ↔
      |exact d * exact k| < limit ∧ |exact s + rounded (exact d * exact k)| < limit := by
  have product := nearest_mul delta count
  by_cases finite : (d * k).isFinite
  · rw [isFinite_add_iff start finite, product.exact_eq finite]
    exact (and_iff_right (product.isFinite_iff.mp finite)).symm
  · have far : ¬ |exact d * exact k| < limit := mt product.isFinite_iff.mpr finite
    exact ⟨fun arrived => absurd (isFinite_of_add arrived).2 finite,
      fun ⟨near, _⟩ => absurd near far⟩

theorem isFinite_step_of_le {s d k n : Float} (start : s.isFinite) (delta : d.isFinite)
    (count : k.isFinite) (count' : n.isFinite) (positive : 0 ≤ exact k)
    (order : exact k ≤ exact n)
    (last : (s + d * n).isFinite) : (s + d * k).isFinite := by
  rw [isFinite_step_iff start delta count'] at last
  rw [isFinite_step_iff start delta count]
  obtain ⟨near, arrives⟩ := last
  have bounded := exact_bounded s
  rw [abs_lt] at near arrives bounded ⊢
  rcases le_total 0 (exact d) with forward | backward
  · have some : 0 ≤ exact d * exact k := mul_nonneg forward positive
    have less : exact d * exact k ≤ exact d * exact n := mul_le_mul_of_nonneg_left order forward
    have low := rounded_mono some
    have high := rounded_mono less
    rw [rounded_zero] at low
    exact ⟨⟨by linarith, by linarith⟩, abs_lt.mpr ⟨by linarith, by linarith⟩⟩
  · have some : exact d * exact k ≤ 0 := mul_nonpos_of_nonpos_of_nonneg backward positive
    have more : exact d * exact n ≤ exact d * exact k := mul_le_mul_of_nonpos_left order backward
    have high := rounded_mono some
    have low := rounded_mono more
    rw [rounded_zero] at high
    exact ⟨⟨by linarith, by linarith⟩, abs_lt.mpr ⟨by linarith, by linarith⟩⟩

end Step

def ordinal (step : UInt32) : Float := step.toFloat + UInt32.toFloat 1

theorem isFinite_toFloat (n : UInt32) : n.toFloat.isFinite :=
  isFinite_ofNat (n.toNat_lt.trans (by norm_num))

theorem exact_toFloat (n : UInt32) : exact n.toFloat = n.toNat :=
  exact_ofNat (n.toNat_lt.trans (by norm_num))

theorem nearest_ordinal (step : UInt32) : Nearest (ordinal step) (step.toNat + 1 : ℕ) := by
  have sum := nearest_add (isFinite_toFloat step) (isFinite_toFloat 1)
  rw [exact_toFloat, exact_toFloat] at sum
  exact_mod_cast sum

theorem isFinite_ordinal (step : UInt32) : (ordinal step).isFinite :=
  (nearest_ordinal step).isFinite_iff.mpr
    (natCast_lt_limit (k := 33) (by have := step.toNat_lt; omega) (by norm_num))

theorem exact_ordinal (step : UInt32) : exact (ordinal step) = step.toNat + 1 := by
  rw [(nearest_ordinal step).exact_eq (isFinite_ordinal step),
    rounded_natCast (by have := step.toNat_lt; omega)]
  push_cast
  rfl

theorem toNat_pred {n : UInt32} (some : n ≠ 0) : (n - 1).toNat + 1 = n.toNat := by
  have positive : n.toNat ≠ 0 := fun none => some (UInt32.toNat_inj.mp none)
  have one : (1 : UInt32) ≤ n := UInt32.le_iff_toNat_le.mpr (Nat.one_le_iff_ne_zero.mpr positive)
  rw [UInt32.toNat_sub_of_le n 1 one]
  exact Nat.sub_add_cancel (Nat.one_le_iff_ne_zero.mpr positive)

section Arrival

variable {s e : Float} {n : UInt32}

theorem exact_delta (some : n ≠ 0) (delta : ((e - s) / n.toFloat).isFinite) :
    exact ((e - s) / n.toFloat) = rounded (rounded (exact e - exact s) / n.toNat) := by
  have whole := isFinite_of_div delta
  obtain ⟨last, start⟩ := isFinite_of_sub whole
  have count : exact n.toFloat ≠ 0 := by
    rw [exact_toFloat, Nat.cast_ne_zero]
    exact fun none => some (UInt32.toNat_inj.mp none)
  rw [(nearest_div whole (isFinite_toFloat n) count).exact_eq delta,
    (nearest_sub last start).exact_eq whole, exact_toFloat]

theorem isFinite_last_iff (some : n ≠ 0) (start : s.isFinite)
    (delta : ((e - s) / n.toFloat).isFinite) :
    (s + (e - s) / n.toFloat * ordinal (n - 1)).isFinite ↔
      Arrives n.toNat (exact s) (exact e) := by
  have count : exact (ordinal (n - 1)) = n.toNat := by
    rw [exact_ordinal]
    exact_mod_cast toNat_pred some
  rw [isFinite_step_iff start delta (isFinite_ordinal (n - 1)), exact_delta some delta, count,
    Arrives, way]

end Arrival

section Small

variable {n : ℕ} {s e : ℚ}

private theorem double_zpow (k : ℤ) : (2 : ℚ) * 2 ^ k = 2 ^ (1 + k) :=
  (zpow_one_add₀ (by norm_num) k).symm

theorem abs_way_le (some : n ≠ 0) (few : n < 2 ^ 32) (start : |s| ≤ 2 ^ (1021 : ℤ))
    (last : |e| ≤ 2 ^ (1021 : ℤ)) : |way n s e| ≤ 2 ^ (1023 : ℤ) := by
  have parts : (0 : ℚ) < n := by positivity
  have whole : |rounded (e - s)| ≤ 2 ^ (1022 : ℤ) := by
    apply abs_rounded_le (by norm_num)
    calc |e - s| ≤ |e| + |s| := abs_sub e s
      _ ≤ 2 * 2 ^ (1021 : ℤ) := by linarith
      _ = 2 ^ (1022 : ℤ) := double_zpow 1021
  have least : (2 : ℚ) ^ (-1074 : ℤ) ≤ 2 ^ (1022 : ℤ) / n := by
    rw [le_div_iff₀ parts]
    calc (2 : ℚ) ^ (-1074 : ℤ) * n ≤ 2 ^ (-1074 : ℤ) * 2 ^ (32 : ℤ) :=
          mul_le_mul_of_nonneg_left (by exact_mod_cast few.le) (by positivity)
      _ = 2 ^ (-1074 + 32 : ℤ) := (zpow_add₀ (by norm_num) _ _).symm
      _ ≤ 2 ^ (1022 : ℤ) := zpow_le_zpow_right₀ (by norm_num) (by norm_num)
  have delta : |rounded (rounded (e - s) / n)| ≤ 2 * (2 ^ (1022 : ℤ) / n) := by
    rw [abs_rounded, abs_div, abs_of_pos parts]
    exact (roundedMagnitude_mono (by positivity) (div_le_div_of_nonneg_right whole parts.le)).trans
      (roundedMagnitude_le least)
  rw [way, abs_mul, abs_of_pos parts]
  calc |rounded (rounded (e - s) / n)| * n ≤ 2 * (2 ^ (1022 : ℤ) / n) * n :=
        mul_le_mul_of_nonneg_right delta parts.le
    _ = 2 * 2 ^ (1022 : ℤ) := by rw [mul_assoc, div_mul_cancel₀ _ parts.ne']
    _ = 2 ^ (1023 : ℤ) := double_zpow 1022

theorem arrives_of_small (some : n ≠ 0) (few : n < 2 ^ 32) (start : |s| ≤ 2 ^ (1021 : ℤ))
    (last : |e| ≤ 2 ^ (1021 : ℤ)) : Arrives n s e := by
  have total := abs_way_le some few start last
  have bound : (2 : ℚ) ^ (1023 : ℤ) + 2 ^ (1021 : ℤ) < limit :=
    calc (2 : ℚ) ^ (1023 : ℤ) + 2 ^ (1021 : ℤ) = (2 ^ 53 + 2 ^ 51) * 2 ^ 970 := by
          rw [add_mul, ← pow_add, ← pow_add, zpow_ofNat, zpow_ofNat]
      _ < (2 ^ 54 - 1) * 2 ^ 970 := mul_lt_mul_of_pos_right (by norm_num) (by positivity)
      _ = limit := limit_eq.symm
  refine ⟨lt_of_le_of_lt total (lt_of_le_of_lt (le_add_of_nonneg_right (by positivity)) bound),
    ?_⟩
  calc |s + rounded (way n s e)| ≤ |s| + |rounded (way n s e)| := abs_add_le _ _
    _ ≤ 2 ^ (1023 : ℤ) + 2 ^ (1021 : ℤ) := by
        have moved := abs_rounded_le (by norm_num) total
        linarith
    _ < limit := bound

end Small

end Double

def Point.Arrives (n : ℕ) (s e : Position) : Prop :=
  Double.Arrives n (Double.exact s.x) (Double.exact e.x) ∧
    Double.Arrives n (Double.exact s.y) (Double.exact e.y)

def Point.Small (q : Position) : Prop :=
  |Double.exact q.x| ≤ 2 ^ (1021 : ℤ) ∧ |Double.exact q.y| ≤ 2 ^ (1021 : ℤ)

namespace Paths

variable {g : Paths Float} {p : Plan Float}

def place (g : Paths Float) (step : UInt32) (ends : Position × Position) : Position :=
  ends.1 + (ends.2 - ends.1) / (Coordinate.ofCount g.steps : Float) *
    (Coordinate.ofCount step + Coordinate.ofCount 1 : Float)

theorem frame_eq (made : g.plan = .ok p) (step : UInt32) :
    p.frame step = (g.starts.zip g.ends).map (g.place step) := by
  obtain ⟨-, -, -, -, -, -, rfl⟩ := Paths.plan_eq_ok.mp made
  rw [Plan.frame, Paths.deltas, List.zipWith_zipWith_right, List.zipWith3_same_left,
    ← List.map_uncurry_zip_eq_zipWith]
  rfl

theorem finite_of_plan (made : g.plan = .ok p) {ends : Position × Position}
    (listed : ends ∈ g.starts.zip g.ends) :
    ends.1.isFinite ∧ ((ends.2 - ends.1) / g.steps.toFloat).isFinite := by
  obtain ⟨-, -, -, -, points, deltas, -⟩ := Paths.plan_eq_ok.mp made
  constructor
  · exact points _ (List.mem_append_left _ (List.of_mem_zip listed).1)
  · apply deltas
    rw [Paths.deltas, ← List.map_uncurry_zip_eq_zipWith]
    exact List.mem_map_of_mem listed

theorem isFinite_last_place_iff (made : g.plan = .ok p) {ends : Position × Position}
    (listed : ends ∈ g.starts.zip g.ends) :
    (g.place (g.steps - 1) ends).isFinite ↔ Point.Arrives g.steps.toNat ends.1 ends.2 := by
  have some : g.steps ≠ 0 := (Paths.plan_eq_ok.mp made).1
  obtain ⟨start, delta⟩ := finite_of_plan made listed
  rw [Point.isFinite_iff] at start delta ⊢
  exact and_congr (Double.isFinite_last_iff some start.1 delta.1)
    (Double.isFinite_last_iff some start.2 delta.2)

/-- Where the last place of a finger is finite, the places before it are. -/
theorem isFinite_place_of_last (made : g.plan = .ok p) {ends : Position × Position}
    (listed : ends ∈ g.starts.zip g.ends) {step : UInt32} (before : step < g.steps)
    (last : (g.place (g.steps - 1) ends).isFinite) : (g.place step ends).isFinite := by
  obtain ⟨start, delta⟩ := finite_of_plan made listed
  have some : g.steps ≠ 0 := (Paths.plan_eq_ok.mp made).1
  have order : Double.exact (Double.ordinal step) ≤
      Double.exact (Double.ordinal (g.steps - 1)) := by
    rw [Double.exact_ordinal, Double.exact_ordinal]
    have bound : step.toNat + 1 ≤ (g.steps - 1).toNat + 1 :=
      (Double.toNat_pred some).symm ▸ UInt32.lt_iff_toNat_lt.mp before
    exact_mod_cast bound
  have positive : 0 ≤ Double.exact (Double.ordinal step) := by
    rw [Double.exact_ordinal]
    positivity
  rw [Point.isFinite_iff] at start delta last ⊢
  exact ⟨Double.isFinite_step_of_le start.1 delta.1 (Double.isFinite_ordinal _)
    (Double.isFinite_ordinal _) positive order last.1,
    Double.isFinite_step_of_le start.2 delta.2 (Double.isFinite_ordinal _)
      (Double.isFinite_ordinal _) positive order last.2⟩

theorem plan_steps (made : g.plan = .ok p) : p.steps = g.steps := by
  obtain ⟨-, -, -, -, -, -, rfl⟩ := Paths.plan_eq_ok.mp made
  rfl

theorem frames_finite_of_arrives (made : g.plan = .ok p)
    (arrives : ∀ ends ∈ g.starts.zip g.ends, Point.Arrives g.steps.toNat ends.1 ends.2) :
    ∀ step < p.steps, ∀ q ∈ p.frame step, q.isFinite := by
  simp only [plan_steps made, frame_eq made, List.forall_mem_map]
  intro step before ends listed
  exact isFinite_place_of_last made listed before
    ((isFinite_last_place_iff made listed).mpr (arrives ends listed))

theorem frames_finite_of_small (made : g.plan = .ok p)
    (small : ∀ q ∈ g.starts ++ g.ends, Point.Small q) :
    ∀ step < p.steps, ∀ q ∈ p.frame step, q.isFinite := by
  have some : g.steps.toNat ≠ 0 := fun none =>
    (Paths.plan_eq_ok.mp made).1 (UInt32.toNat_inj.mp none)
  apply frames_finite_of_arrives made
  intro ends listed
  obtain ⟨first, second⟩ := List.of_mem_zip listed
  have start := small _ (List.mem_append_left _ first)
  have last := small _ (List.mem_append_right _ second)
  exact ⟨Double.arrives_of_small some g.steps.toNat_lt start.1 last.1,
    Double.arrives_of_small some g.steps.toNat_lt start.2 last.2⟩

/-- Only the start points, the end points and the deltas are checked. All frames are finite exactly
when no finger overflows on its last step. -/
theorem frames_finite_iff (made : g.plan = .ok p) :
    (∀ step < p.steps, ∀ q ∈ p.frame step, q.isFinite) ↔
      ∀ ends ∈ g.starts.zip g.ends, Point.Arrives g.steps.toNat ends.1 ends.2 := by
  refine ⟨?_, frames_finite_of_arrives made⟩
  have below : g.steps - 1 < g.steps := by
    have next := Double.toNat_pred (Paths.plan_eq_ok.mp made).1
    exact UInt32.lt_iff_toNat_lt.mpr (by omega)
  simp only [plan_steps made, frame_eq made, List.forall_mem_map]
  intro finite ends listed
  exact (isFinite_last_place_iff made listed).mp (finite _ below ends listed)

theorem frames_finite_iff_drag :
    ∃ p : Plan Float, (⟨[⟨100, 200⟩], [⟨300, 250.5⟩], 4, .ofMilliseconds 5⟩ :
      Paths Float).plan = .ok p ∧
      ((∀ step < p.steps, ∀ q ∈ p.frame step, q.isFinite) ↔
        ∀ ends ∈ [(⟨100, 200⟩, ⟨300, 250.5⟩)], Point.Arrives 4 ends.1 ends.2) := by
  have made : (⟨[⟨100, 200⟩], [⟨300, 250.5⟩], 4, .ofMilliseconds 5⟩ :
      Paths Float).plan = .ok _ :=
    Paths.plan_eq_ok.mpr ⟨by decide, by decide, by decide, by decide, by decide +kernel,
      by decide +kernel,
      rfl⟩
  exact ⟨_, made, frames_finite_iff made⟩

/-- From zero to the greatest double in three steps: a third of the way is rounded up, and three
times that is infinite. -/
theorem plan_infinite_frame :
    ∃ p : Plan Float,
      (⟨[⟨0, 0⟩], [⟨1.7976931348623157e308, 0⟩], 3, .ofMilliseconds 5⟩ :
        Paths Float).plan = .ok p ∧
      ∃ step < p.steps, ∃ q ∈ p.frame step, ¬ q.isFinite := by
  have made : (⟨[⟨0, 0⟩], [⟨1.7976931348623157e308, 0⟩], 3, .ofMilliseconds 5⟩ :
      Paths Float).plan =
      .ok _ :=
    Paths.plan_eq_ok.mpr ⟨by decide, by decide, by decide, by decide, by decide +kernel,
      by decide +kernel,
      rfl⟩
  have overflow : ¬ (⟨0, 0⟩ +
      (⟨1.7976931348623157e308, 0⟩ - ⟨0, 0⟩ : Position) / (3 : UInt32).toFloat *
      Double.ordinal 2 : Position).isFinite := by decide +kernel
  exact ⟨_, made, 2, by decide, _, List.mem_singleton_self _, overflow⟩

end Paths

end TouchGesture
