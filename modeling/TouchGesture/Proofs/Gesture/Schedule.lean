import Mathlib.Data.List.Forall2
import TouchGesture.Proofs.Gesture.Plan
import TouchGesture.Proofs.Gesture.Script

/-! The schedule of a plan, written out row by row: each row is one touch of every finger, from the
first to the last, and each step ends with a sleep. -/

namespace TouchGesture

namespace Finger

theorem length_first (n : UInt32) : (first n).length = n.toNat := by
  rw [first, List.length_map, List.length_range]

theorem indexes_first (n : UInt32) :
    (first n).map (fun f => f.index.toNat) = List.range n.toNat := by
  rw [first, List.map_map]
  refine (List.map_congr_left fun k member => ?_).trans (List.map_id _)
  have small : k < UInt32.size := Nat.lt_trans (List.mem_range.mp member) n.toNat_lt
  exact UInt32.toNat_ofNat_of_lt small

end Finger

/-- One touch of each of the first fingers, in their order, all in one phase. -/
structure Touch.Row (count : Nat) (phase : Phase) (places : List (Option Position))
    (row : List TouchEvent) : Prop where
  fingers : row.map (fun e => e.finger.index.toNat) = List.range count
  phases : row.map Touch.phase = List.replicate count phase
  places : row.map Touch.point? = places

namespace Touch.Row

variable {count : Nat} {phase : Phase} {places : List (Option Position)}
  {row row' : List TouchEvent}

theorem length_eq (laid : Row count phase places row) : row.length = count := by
  simpa using congrArg List.length laid.fingers

/-- A row is known by its phase and its places. -/
theorem unique (laid : Row count phase places row) (laid' : Row count phase places row') :
    row = row' := by
  apply List.ext_getElem (laid.length_eq.trans laid'.length_eq.symm)
  intro i inside inside'
  have index := List.getElem_of_eq (laid.fingers.trans laid'.fingers.symm) (by simpa using inside)
  have phase := List.getElem_of_eq (laid.phases.trans laid'.phases.symm) (by simpa using inside)
  have place := List.getElem_of_eq (laid.places.trans laid'.places.symm) (by simpa using inside)
  simp only [List.getElem_map] at index phase place
  have finger : row[i].finger = row'[i].finger := congrArg Finger.mk (UInt32.toNat_inj.mp index)
  exact eq_of_parts phase finger place

theorem of_zipWith {α : Type} {touch : Finger → α → TouchEvent}
    {place : α → Option Position} {n : UInt32} {items : List α}
    (marked : ∀ f a, (touch f a).finger = f) (phased : ∀ f a, (touch f a).phase = phase)
    (placed : ∀ f a, (touch f a).point? = place a) (counts : items.length = n.toNat) :
    Row n.toNat phase (items.map place) (List.zipWith touch (Finger.first n) items) := by
  have paired : (Finger.first n).length = items.length := (Finger.length_first n).trans counts.symm
  -- each part is read off place by place
  refine ⟨?_, ?_, ?_⟩
  · rw [← Finger.indexes_first]
    apply List.ext_getElem (by simp [paired])
    intro i _ _
    simp [marked]
  · apply List.ext_getElem (by simp [paired, counts])
    intro i _ _
    simp [phased]
  · apply List.ext_getElem (by simp [paired])
    intro i _ _
    simp [placed]

end Touch.Row

namespace Plan

def Rows (p : Plan Float) (touches : List TouchEvent) : Prop :=
  ∃ presses moves last lifts,
    Touch.Row p.fingers.toNat .down (p.starts.map some) presses ∧
    List.Forall₂ (fun points => Touch.Row p.fingers.toNat .move (points.map some))
      p.frames moves ∧
    Touch.Row p.fingers.toNat .move (p.ends.map some) last ∧
    Touch.Row p.fingers.toNat .up (List.replicate p.fingers.toNat none) lifts ∧
    touches = presses ++ moves.flatten ++ last ++ lifts

/-- One step: all fingers are moved to their places, then there is one sleep. -/
def Paced (p : Plan Float) (step : Nat) (acts : List Act) : Prop :=
  ∃ moves, Touch.Row p.fingers.toNat .move ((p.frame (UInt32.ofNat step)).map some) moves ∧
    acts = moves.map .touch ++ [.sleep p.pause]

def Begun (p : Plan Float) (steps : Nat) (acts : List Act) : Prop :=
  ∃ presses paces,
    Touch.Row p.fingers.toNat .down (p.starts.map some) presses ∧
    List.Forall₂ p.Paced (List.range steps) paces ∧
    acts = presses.map .touch ++ paces.flatten

/-- After all steps the fingers are moved to their ends and go up. -/
def Scheduled (p : Plan Float) (acts : List Act) : Prop :=
  ∃ begun last lifts,
    p.Begun p.steps.toNat begun ∧
    Touch.Row p.fingers.toNat .move (p.ends.map some) last ∧
    Touch.Row p.fingers.toNat .up (List.replicate p.fingers.toNat none) lifts ∧
    acts = begun ++ last.map .touch ++ lifts.map .touch

theorem length_fingerNames (p : Plan Float) : p.fingerNames.length = p.fingers.toNat :=
  Finger.length_first p.fingers

theorem indexes_fingerNames (p : Plan Float) :
    p.fingerNames.map (fun f => f.index.toNat) = List.range p.fingers.toNat :=
  Finger.indexes_first p.fingers

theorem ups_eq (p : Plan Float) :
    p.ups = List.zipWith (fun g (_ : Finger) => Touch.up g) p.fingerNames p.fingerNames := by
  rw [ups, List.zipWith_self]

variable {p : Plan Float} {touches touches' : List TouchEvent} {acts acts' : List Act}
  {step steps : Nat}

theorem Aligned.row_downs (aligned : p.Aligned) :
    Touch.Row p.fingers.toNat .down (p.starts.map some) p.downs :=
  .of_zipWith (fun _ _ => rfl) (fun _ _ => rfl) (fun _ _ => rfl) aligned.starts_length

theorem row_moves {points : List Position} (counts : points.length = p.fingers.toNat) :
    Touch.Row p.fingers.toNat .move (points.map some) (p.moves points) :=
  .of_zipWith (fun _ _ => rfl) (fun _ _ => rfl) (fun _ _ => rfl) counts

theorem row_ups (p : Plan Float) :
    Touch.Row p.fingers.toNat .up (List.replicate p.fingers.toNat none) p.ups := by
  rw [ups_eq, ← p.length_fingerNames, ← List.map_const', p.length_fingerNames]
  exact .of_zipWith (fun _ _ => rfl) (fun _ _ => rfl) (fun _ _ => rfl) p.length_fingerNames

theorem Aligned.rows_events (aligned : p.Aligned) : p.Rows p.events := by
  refine ⟨p.downs, p.frames.map p.moves, p.moves p.ends, p.ups, aligned.row_downs, ?_,
    row_moves aligned.ends_length, p.row_ups, ?_⟩
  · rw [List.forall₂_map_right_iff, List.forall₂_same]
    exact fun points listed => row_moves (aligned.length_of_mem_frames points listed)
  · rw [events, List.flatMap_def]

theorem Rows.unique (rows : p.Rows touches) (rows' : p.Rows touches') : touches = touches' := by
  obtain ⟨presses, moves, last, lifts, press, move, correct, lift, rfl⟩ := rows
  obtain ⟨presses', moves', last', lifts', press', move', correct', lift', rfl⟩ := rows'
  have known : Relator.RightUnique fun points : List Position =>
      Touch.Row p.fingers.toNat .move (points.map some) := fun _ _ _ row row' => row.unique row'
  have same : moves = moves' := known.forall₂ move move'
  rw [press.unique press', same, correct.unique correct', lift.unique lift']

theorem Aligned.rows_iff (aligned : p.Aligned) : p.Rows touches ↔ touches = p.events :=
  ⟨fun rows => rows.unique aligned.rows_events, fun same => same ▸ aligned.rows_events⟩

theorem Aligned.paced_beat (aligned : p.Aligned) (step : Nat) : p.Paced step (p.beat step) :=
  ⟨_, row_moves (aligned.frame_length _), rfl⟩

theorem Aligned.begun_through (aligned : p.Aligned) (steps : Nat) :
    p.Begun steps (p.through steps) := by
  refine ⟨p.downs, (List.range steps).map p.beat, aligned.row_downs, ?_, ?_⟩
  · rw [List.forall₂_map_right_iff, List.forall₂_same]
    exact fun step _ => aligned.paced_beat step
  · rw [through, List.flatMap_def]

theorem Aligned.scheduled_script (aligned : p.Aligned) : p.Scheduled p.script :=
  ⟨_, _, _, aligned.begun_through _, row_moves aligned.ends_length, p.row_ups, rfl⟩

theorem Paced.unique (paced : p.Paced step acts) (paced' : p.Paced step acts') : acts = acts' := by
  obtain ⟨moves, row, rfl⟩ := paced
  obtain ⟨moves', row', rfl⟩ := paced'
  rw [row.unique row']

theorem Begun.unique (begun : p.Begun steps acts) (begun' : p.Begun steps acts') :
    acts = acts' := by
  obtain ⟨presses, paces, press, pace, rfl⟩ := begun
  obtain ⟨presses', paces', press', pace', rfl⟩ := begun'
  have known : Relator.RightUnique p.Paced := fun _ _ _ paced paced' => paced.unique paced'
  have same : paces = paces' := known.forall₂ pace pace'
  rw [press.unique press', same]

/-- The script of a plan is its only schedule. -/
theorem Aligned.scheduled_iff (aligned : p.Aligned) : p.Scheduled acts ↔ acts = p.script := by
  refine ⟨fun scheduled => ?_, fun same => same ▸ aligned.scheduled_script⟩
  obtain ⟨begun, last, lifts, early, correct, lift, rfl⟩ := scheduled
  rw [early.unique (aligned.begun_through _), correct.unique (row_moves aligned.ends_length),
    lift.unique p.row_ups, script]

end Plan

end TouchGesture
