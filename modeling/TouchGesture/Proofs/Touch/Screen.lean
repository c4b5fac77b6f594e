import TouchGesture.Proofs.Touch.Lifecycle

/-! The points that a panel with a resolution reports. They lie on its screen if the coordinates
that it was touched at are numbers. -/

namespace TouchGesture

def Point.IsNumber (q : Position) : Prop := ¬ q.x.isNaN ∧ ¬ q.y.isNaN

namespace Resolution

def Spans (bound v : Float) : Prop := 0 ≤ v ∧ v ≤ bound

def Covers (r : Resolution) (q : Position) : Prop := Spans r.width q.x ∧ Spans r.height q.y

variable {bound v w : Float} {r : Resolution} {spot point : Position}

theorem clampTo?_nan (nan : v.isNaN) (clamped : clampTo? bound v = some w) : w = v := by
  have low : ¬ v < 0 := fun less => (Double.not_isNaN_of_le (Double.le_of_lt less)).1 nan
  have high : ¬ bound < v := fun less => (Double.not_isNaN_of_le (Double.le_of_lt less)).2 nan
  by_cases range : 0 ≤ bound
  · simp only [clampTo?, range, low, high, if_true, if_false, Option.some.injEq] at clamped
    exact clamped.symm
  · simp [clampTo?, range] at clamped

theorem spans_clampTo? (number : ¬ v.isNaN) (clamped : clampTo? bound v = some w) :
    Spans bound w := by
  have zero : (0 : Float) ≤ 0 := Double.le_refl (by decide)
  by_cases range : 0 ≤ bound
  · have bounded : ¬ bound.isNaN := (Double.not_isNaN_of_le range).2
    have positive : ¬ bound < 0 := Double.not_lt_of_le range
    simp only [clampTo?, range, if_true, Option.some.injEq] at clamped
    by_cases low : v < 0
    · simp only [low, positive, if_true, if_false] at clamped
      subst clamped
      exact ⟨zero, range⟩
    · simp only [low, if_false] at clamped
      have above : 0 ≤ v := Double.le_of_not_lt number (by decide) low
      by_cases high : bound < v
      · simp only [high, if_true] at clamped
        subst clamped
        exact ⟨range, Double.le_refl bounded⟩
      · simp only [high, if_false] at clamped
        subst clamped
        exact ⟨above, Double.le_of_not_lt bounded number high⟩
  · simp [clampTo?, range] at clamped

theorem spans_clampTo?_iff (clamped : clampTo? bound v = some w) :
    Spans bound w ↔ ¬ v.isNaN := by
  refine ⟨fun spans nan => ?_, fun number => spans_clampTo? number clamped⟩
  rw [clampTo?_nan nan clamped] at spans
  exact (Double.not_isNaN_of_le spans.1).2 nan

theorem covers_clamp?_iff (clamped : r.clamp? spot = some point) : r.Covers point ↔
    spot.IsNumber := by
  simp only [clamp?, bind, Option.bind_eq_some_iff] at clamped
  obtain ⟨x, across, y, down, made⟩ := clamped
  obtain rfl : Point.mk x y = point := Option.some.inj made
  exact and_congr (spans_clampTo?_iff across) (spans_clampTo?_iff down)

/-- Whatever the panel is touched with, each coordinate is in its range or not a number. -/
def Confines (r : Resolution) (q : Position) : Prop :=
  (Spans r.width q.x ∨ q.x.isNaN) ∧ (Spans r.height q.y ∨ q.y.isNaN)

theorem confines_clampTo? (clamped : clampTo? bound v = some w) : Spans bound w ∨ w.isNaN := by
  by_cases nan : v.isNaN
  · exact .inr (clampTo?_nan nan clamped ▸ nan)
  · exact .inl (spans_clampTo? nan clamped)

theorem confines_clamp? (clamped : r.clamp? spot = some point) : r.Confines point := by
  simp only [clamp?, bind, Option.bind_eq_some_iff] at clamped
  obtain ⟨x, across, y, down, made⟩ := clamped
  obtain rfl : Point.mk x y = point := Option.some.inj made
  exact ⟨confines_clampTo? across, confines_clampTo? down⟩

def locate? (r : Resolution) : TouchEvent → Option TouchEvent
  | .down f spot => (r.clamp? spot).map (.down f)
  | .move f spot => (r.clamp? spot).map (.move f)
  | .up f => some (.up f)

theorem point?_locate? {e told : TouchEvent} (located : r.locate? e = some told) :
    told.point? = e.point?.bind r.clamp? := by
  cases e with
  | down f spot =>
      obtain ⟨point, clamped, rfl⟩ := Option.map_eq_some_iff.mp located
      exact clamped.symm
  | move f spot =>
      obtain ⟨point, clamped, rfl⟩ := Option.map_eq_some_iff.mp located
      exact clamped.symm
  | up f =>
      obtain rfl := Option.some.inj located
      rfl

theorem isSome_locate? (bounded : r.Bounded) (e : TouchEvent) : (r.locate? e).isSome := by
  cases e with
  | down f spot => simpa [locate?] using clamp?_isSome bounded spot
  | move f spot => simpa [locate?] using clamp?_isSome bounded spot
  | up f => rfl

end Resolution

namespace Panel

variable {p : Panel} {r : Resolution}

theorem place?_resolved (given : p.resolution = some r) (spot : Position) :
    p.place? spot = r.clamp? spot := by
  rw [place?, given]

/-- A touch is refused and changes nothing, or it is logged as the panel reports it. -/
inductive Report (p : Panel) (r : Resolution) (e : TouchEvent) : Verdict × Panel → Prop
  | refused (refusal : Refusal) : Report p r e (.rejected refusal, p)
  | logged {told : TouchEvent} {q : Panel} :
      r.locate? e = some told → q.resolution = p.resolution →
      q.log = p.log.push told → Report p r e (.accepted, q)

theorem touch_report (given : p.resolution = some r) (bounded : p.Bounded) (e : TouchEvent) :
    Report p r e (touch e p) := by
  cases e with
  | down f spot =>
      rw [touch]
      rcases press_cases bounded f spot with
        ⟨-, refused⟩ | ⟨-, -, refused⟩ | ⟨slot, point, -, -, placed, pressed⟩
      · exact refused ▸ .refused _
      · exact refused ▸ .refused _
      · rw [place?_resolved given] at placed
        exact pressed ▸ .logged (by rw [Resolution.locate?, placed, Option.map_some]) rfl rfl
  | move f spot =>
      rw [touch]
      rcases slide_cases bounded f spot with ⟨-, refused⟩ | ⟨point, -, placed, slid⟩
      · exact refused ▸ .refused _
      · rw [place?_resolved given] at placed
        exact slid ▸ .logged (by rw [Resolution.locate?, placed, Option.map_some]) rfl rfl
  | up f =>
      rw [touch]
      rcases lift_cases p f with ⟨-, refused⟩ | ⟨c, -, rfl, lifted⟩
      · exact refused ▸ .refused _
      · exact lifted ▸ .logged rfl rfl rfl

/-- The log tells the accepted touches, one after another, as the panel reports them. -/
theorem log_after (given : p.resolution = some r) (bounded : p.Bounded) (events : List TouchEvent) :
    (device.after events p).log.toList =
      p.log.toList ++ (device.accepted events p).filterMap r.locate? := by
  induction events generalizing p with
  | nil => simp [Device.after, Device.accepted]
  | cons e rest ih =>
      have report : Report p r e (device.touch e p) := touch_report given bounded e
      have safe : (device.touch e p).2.Bounded := touch_bounded bounded e
      rw [Device.after, List.foldl_cons, ← Device.after, Device.accepted]
      generalize device.touch e p = result at report safe ⊢
      cases report with
      | refused _ => exact ih given bounded
      | logged located same log =>
          rw [ih (same.trans given) safe, log]
          simp [located]

def Everywhere (p : Panel) (holds : Position → Prop) : Prop :=
  (∀ c ∈ p.contacts, holds c.point) ∧
    ∀ told ∈ p.log.toList, ∀ point, told.point? = some point → holds point

theorem Chronicled.everywhere_iff (chronicled : p.Chronicled) {holds : Position → Prop} :
    p.Everywhere holds ↔
      ∀ told ∈ p.log.toList, ∀ point, told.point? = some point → holds point := by
  refine ⟨And.right, fun logged => ⟨fun c member => ?_, logged⟩⟩
  obtain ⟨told, last, here⟩ := chronicled.point c member
  have listed := List.mem_of_getLast? last
  exact logged told (List.mem_filter.mp listed).1 c.point here

/-- All points are those of accepted touches, clamped. -/
theorem everywhere_after_iff (max : Nat) (bounded : r.Bounded) (events : List TouchEvent)
    {holds : Position → Prop} :
    (device.after events (fresh max (some r))).Everywhere holds ↔
      ∀ e ∈ device.accepted events (fresh max (some r)), ∀ spot point,
        e.point? = some spot →
        r.clamp? spot = some point → holds point := by
  have safe : ∀ s, some r = some s → s.Bounded := by
    rintro s ⟨⟩
    exact bounded
  have chronicled := (lifelike_after max safe events).2
  have log : (device.after events (fresh max (some r))).log.toList =
      (device.accepted events (fresh max (some r))).filterMap r.locate? :=
    log_after rfl (bounded_fresh safe) events
  rw [chronicled.everywhere_iff, log]
  constructor
  · intro logged e accepted spot point here clamped
    obtain ⟨told, located⟩ := Option.isSome_iff_exists.mp (Resolution.isSome_locate? bounded e)
    refine logged told (List.mem_filterMap.mpr ⟨e, accepted, located⟩) point ?_
    rw [Resolution.point?_locate? located, here]
    exact clamped
  · intro clamped told listed point here
    obtain ⟨e, accepted, located⟩ := List.mem_filterMap.mp listed
    rw [Resolution.point?_locate? located, Option.bind_eq_some_iff] at here
    obtain ⟨spot, there, placed⟩ := here
    exact clamped e accepted spot point there placed

/-- The points that a panel with a resolution reports are on its screen exactly if every press and
every move that it accepted came with two numbers. In any case each coordinate is in its range or
not a number. -/
theorem points_covered_iff (max : Nat) (bounded : r.Bounded) (events : List TouchEvent) :
    let p := fresh max (some r)
    let q := device.after events p
    (q.Everywhere r.Covers ↔
      ∀ e ∈ device.accepted events p, ∀ spot, e.point? = some spot → spot.IsNumber) ∧
    q.Everywhere r.Confines := by
  intro p q
  rw [everywhere_after_iff max bounded, everywhere_after_iff max bounded]
  constructor
  · constructor
    · intro covers e accepted spot here
      obtain ⟨point, clamped⟩ :=
        Option.isSome_iff_exists.mp (Resolution.clamp?_isSome bounded spot)
      exact (Resolution.covers_clamp?_iff clamped).mp (covers e accepted spot point here clamped)
    · intro numbers e accepted spot point here clamped
      exact (Resolution.covers_clamp?_iff clamped).mpr (numbers e accepted spot here)
  · intro e _ spot point _ clamped
    exact Resolution.confines_clamp? clamped

/-- Finger 7 is at an infinite point and then beyond the edge. Finger 3, which comes with no number,
finds no slot. -/
theorem points_covered_iff_one_slot :
    ∃ q : Panel, q.contacts = [⟨⟨7⟩, 0, 1, ⟨-0.0, 50⟩⟩] ∧
      q.log.toList = [.down ⟨7⟩ ⟨100, 0⟩, .move ⟨7⟩ ⟨-0.0, 50⟩] ∧
      q.Everywhere (⟨100, 50⟩ : Resolution).Covers := by
  have bounded : (⟨100, 50⟩ : Resolution).Bounded := by
    constructor <;> decide
  have accepted : device.accepted
      [.down ⟨7⟩ ⟨1 / 0, -4⟩, .down ⟨3⟩ ⟨0 / 0, 0⟩, .move ⟨7⟩ ⟨-0.0, 60⟩]
      (fresh 1 (some ⟨100, 50⟩)) =
        [.down ⟨7⟩ ⟨1 / 0, -4⟩, .move ⟨7⟩ ⟨-0.0, 60⟩] := by
    decide +kernel
  have numbers : ∀ e ∈ [Touch.down ⟨7⟩ ⟨1 / 0, -4⟩, .move ⟨7⟩ ⟨-0.0, 60⟩],
      ∀ spot : Position,
      e.point? = some spot → spot.IsNumber := by
    simp [Touch.point?, Point.IsNumber]
    decide +kernel
  exact ⟨_, by decide +kernel, by decide +kernel,
    (points_covered_iff 1 bounded _).1.mpr (accepted ▸ numbers)⟩

/-- On a screen of 100 by 50 a press at a place that is not a number is accepted, logged and kept
there. -/
theorem press_uncovered :
    ∃ q : Panel, q = device.after [.down ⟨0⟩ ⟨0 / 0, 1⟩]
      (fresh 1 (some ⟨100, 50⟩)) ∧
      (⟨100, 50⟩ : Resolution).Bounded ∧ (100 : Float).isFinite ∧ (50 : Float).isFinite ∧
      (∃ c ∈ q.contacts, ¬ (⟨100, 50⟩ : Resolution).Covers c.point) ∧
      ∃ told ∈ q.log.toList, ∃ point, told.point? = some point ∧
        ¬ (⟨100, 50⟩ : Resolution).Covers point := by
  have present : ⟨⟨0⟩, 0, 1, ⟨0 / 0, 1⟩⟩ ∈
      (device.after [.down ⟨0⟩ ⟨0 / 0, 1⟩] (fresh 1 (some ⟨100, 50⟩))).contacts := by
    decide +kernel
  have logged : .down ⟨0⟩ ⟨0 / 0, 1⟩ ∈
      (device.after [.down ⟨0⟩ ⟨0 / 0, 1⟩] (fresh 1 (some ⟨100, 50⟩))).log.toList := by
    decide +kernel
  have outside : ¬ (⟨100, 50⟩ : Resolution).Covers ⟨0 / 0, 1⟩ := by
    rintro ⟨⟨left, -⟩, -⟩
    exact (Double.not_isNaN_of_le left).2 (by decide +kernel)
  have screen : (⟨100, 50⟩ : Resolution).Bounded := by
    constructor <;> decide
  exact ⟨_, rfl, screen, by decide +kernel, by decide +kernel, ⟨_, present, outside⟩, _,
    logged, _, rfl, outside⟩

end Panel

end TouchGesture
