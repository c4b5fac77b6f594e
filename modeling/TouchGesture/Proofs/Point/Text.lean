import TouchGesture.Point.Literal
import TouchGesture.Proofs.Decimal.Reading

/-! Which texts are points, and which fault is found in the others. -/

namespace TouchGesture

open Decimal (Literal Means)
open Text (Padded)

def Cut (s : String) (before behind : List Char) : Prop :=
  s.toList = before ++ ',' :: behind ∧ ',' ∉ before

def Point.Written (s : String) (p : Position) : Prop :=
  ∃ before behind, Cut s before behind ∧ ∃ x y : Literal, Padded before x.chars ∧
    Padded behind y.chars ∧
    x.rounded.isFinite ∧ y.rounded.isFinite ∧ p = ⟨x.rounded, y.rounded⟩

/-- The texts that a fault is found in: each fault only where those before it are not. -/
inductive PointFault.Arises : PointFault → String → Prop where
  | noComma {s : String} (missing : ',' ∉ s.toList) : Arises (.noComma s) s
  | badX {s : String} {before behind : List Char} {fault : Decimal.LiteralFault}
      (cut : Cut s before behind) (meaningless : ∀ x, ¬ Means before x)
        (kind : fault = .empty ↔ ∀ c ∈ before, Text.isBlank c) :
      Arises (.badX (String.ofList before) fault) s
  | badY {s : String} {before behind : List Char} {x : Float} {fault : Decimal.LiteralFault}
      (cut : Cut s before behind) (left : Means before x) (meaningless : ∀ y, ¬ Means behind y)
        (kind : fault = .empty ↔ ∀ c ∈ behind, Text.isBlank c) :
      Arises (.badY (String.ofList behind) fault) s
  | notFinite {s : String} {before behind : List Char} {x y : Float} (cut : Cut s before behind)
      (left : Means before x) (right : Means behind y) (infinite : ¬ (x.isFinite ∧ y.isFinite)) :
      Arises (.notFinite s) s

section Parts

variable {s : String} {before behind : List Char} {p : Position} {fault : PointFault} {x y : Float}

theorem exists_cut (present : ',' ∈ s.toList) : ∃ before behind, Cut s before behind :=
  List.eq_append_cons_of_mem present

theorem ne_comma {cs : List Char} (absent : ',' ∉ cs) : ∀ c ∈ cs, decide (c ≠ ',') := by
  intro c member
  exact decide_eq_true (ne_of_mem_of_not_mem member absent)

theorem Cut.takeWhile (cut : Cut s before behind) : s.toList.takeWhile (· ≠ ',') = before := by
  obtain ⟨text, first⟩ := cut
  rw [text]
  exact Text.takeWhile_run (ne_comma first) (Text.stops_cons.mpr rfl)

theorem Cut.dropWhile (cut : Cut s before behind) :
    s.toList.dropWhile (· ≠ ',') = ',' :: behind := by
  obtain ⟨text, first⟩ := cut
  rw [text]
  exact Text.dropWhile_run (ne_comma first) (Text.stops_cons.mpr rfl)

namespace Point

theorem ofText_of_missing (missing : ',' ∉ s.toList) : ofText s = .error (.noComma s) := by
  have nothing : s.toList.dropWhile (· ≠ ',') = [] :=
    List.dropWhile_eq_nil_iff.mpr (ne_comma missing)
  simp only [ofText, nothing]

theorem ofText_of_badX {bad : Decimal.LiteralFault} (cut : Cut s before behind)
    (refused : Decimal.literal (Text.trim before) = .error bad) :
    ofText s = .error (.badX (String.ofList before) bad) := by
  simp only [ofText, cut.takeWhile, cut.dropWhile, refused]

theorem ofText_of_badY {bad : Decimal.LiteralFault} (cut : Cut s before behind)
    (left : Means before x) (refused : Decimal.literal (Text.trim behind) = .error bad) :
    ofText s = .error (.badY (String.ofList behind) bad) := by
  simp only [ofText, cut.takeWhile, cut.dropWhile, Decimal.literal_trim_eq_ok_iff.mpr left, refused]

theorem ofText_of_means (cut : Cut s before behind) (left : Means before x)
    (right : Means behind y) :
    ofText s = if x.isFinite ∧ y.isFinite then .ok ⟨x, y⟩ else .error (.notFinite s) := by
  simp only [ofText, cut.takeWhile, cut.dropWhile, Decimal.literal_trim_eq_ok_iff.mpr left,
    Decimal.literal_trim_eq_ok_iff.mpr right, isFinite_iff]

theorem written_or_arises (s : String) :
    (∃ p, Written s p) ∨ ∃ fault : PointFault, fault.Arises s := by
  by_cases present : ',' ∈ s.toList
  swap
  · exact .inr ⟨_, .noComma present⟩
  obtain ⟨before, behind, cut⟩ := exists_cut present
  cases left : Decimal.literal (Text.trim before) with
  | error bad =>
      obtain ⟨meaningless, kind⟩ := Decimal.literal_trim_eq_error_iff.mp left
      exact .inr ⟨_, .badX cut meaningless kind⟩
  | ok x =>
      have left := Decimal.literal_trim_eq_ok_iff.mp left
      cases right : Decimal.literal (Text.trim behind) with
      | error bad =>
          obtain ⟨meaningless, kind⟩ := Decimal.literal_trim_eq_error_iff.mp right
          exact .inr ⟨_, .badY cut left meaningless kind⟩
      | ok y =>
          have right := Decimal.literal_trim_eq_ok_iff.mp right
          by_cases finite : x.isFinite ∧ y.isFinite
          · obtain ⟨a, padded, rfl⟩ := (Decimal.means_iff_of_isFinite finite.1).mp left
            obtain ⟨b, padded', rfl⟩ := (Decimal.means_iff_of_isFinite finite.2).mp right
            exact .inl ⟨_, before, behind, cut, a, b, padded, padded', finite.1, finite.2, rfl⟩
          · exact .inr ⟨_, .notFinite cut left right finite⟩

theorem ofText_of_written (written : Written s p) : ofText s = .ok p := by
  obtain ⟨before, behind, cut, a, b, left, right, finite, finite', rfl⟩ := written
  rw [ofText_of_means cut ⟨_, left, .literal a⟩ ⟨_, right, .literal b⟩,
    if_pos ⟨finite, finite'⟩]

theorem ofText_of_arises (arises : fault.Arises s) : ofText s = .error fault := by
  cases arises with
  | noComma missing => exact ofText_of_missing missing
  | badX cut meaningless kind =>
      exact ofText_of_badX cut (Decimal.literal_trim_eq_error_iff.mpr ⟨meaningless, kind⟩)
  | badY cut left meaningless kind =>
      exact ofText_of_badY cut left (Decimal.literal_trim_eq_error_iff.mpr ⟨meaningless, kind⟩)
  | notFinite cut left right infinite => rw [ofText_of_means cut left right, if_neg infinite]

theorem ofText_eq_ok_iff : ofText s = .ok p ↔ Written s p := by
  refine ⟨?_, ofText_of_written⟩
  intro read
  rcases written_or_arises s with ⟨q, written⟩ | ⟨fault, arises⟩
  · have same := ofText_of_written written
    rw [read] at same
    cases same
    exact written
  · have refused := ofText_of_arises arises
    rw [read] at refused
    cases refused

theorem ofText_eq_error_iff : ofText s = .error fault ↔ fault.Arises s := by
  refine ⟨?_, ofText_of_arises⟩
  intro refused
  rcases written_or_arises s with ⟨q, written⟩ | ⟨other, arises⟩
  · have read := ofText_of_written written
    rw [refused] at read
    cases read
  · have same := ofText_of_arises arises
    rw [refused] at same
    cases same
    exact arises

/-- A text is read as a point exactly if it is written as one, and if it is not it is refused with
the first fault that is in it. -/
theorem ofText_iff (s : String) :
    (∀ p, ofText s = .ok p ↔ Written s p) ∧ ∀ fault, ofText s = .error fault ↔
      fault.Arises s :=
  ⟨fun _ => ofText_eq_ok_iff, fun _ => ofText_eq_error_iff⟩

example : (ofText " -1.5 , 3 ").toOption = some ⟨-1.5, 3⟩ := by decide +kernel

example : (ofText "1,2,3").toOption = none := by decide +kernel

end Point

end Parts

end TouchGesture
