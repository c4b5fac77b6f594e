import TouchGesture.Proofs.Decimal.Plain
import TouchGesture.Proofs.Point.Text
import TouchGesture.Proofs.Text.Lines
import TouchGesture.Proofs.Touch.Screen

/-! The text of a point. Without its parentheses it is read as the point, bit for bit, and no two
points have the same text. -/

namespace TouchGesture.Point

open Decimal (plain plainChars)
open Text (Blank Padded)

variable {p : Position} {s : String} {before behind : List Char}

theorem comma_not_mem_plainChars (x : Float) : ',' ∉ plainChars x := by
  intro member
  have numeric := Decimal.numeric_plainChars x ',' member
  exact absurd numeric (by decide)

theorem comma_not_mem_padded {x : Float} (padded : Padded before (plainChars x)) :
    ',' ∉ before := by
  obtain ⟨front, back, rfl, blank, blank'⟩ := padded
  intro member
  rcases List.mem_append.mp member with first | later
  · exact absurd (blank _ first) (by decide)
  · rcases List.mem_append.mp later with number | last
    · exact comma_not_mem_plainChars x number
    · exact absurd (blank' _ last) (by decide)

theorem written_of_padded (finite : p.isFinite) (text : s.toList = before ++ ',' :: behind)
    (left : Padded before (plainChars p.x)) (right : Padded behind (plainChars p.y)) :
    Written s p := by
  obtain ⟨across, down⟩ := isFinite_iff.mp finite
  obtain ⟨a, chars, -, rounded, -⟩ := Decimal.spells_plainChars across
  obtain ⟨b, chars', -, rounded', -⟩ := Decimal.spells_plainChars down
  refine ⟨before, behind, ⟨text, comma_not_mem_padded left⟩, a, b, ?_, ?_, ?_, ?_, ?_⟩
  · rwa [chars]
  · rwa [chars']
  · rwa [rounded]
  · rwa [rounded']
  · rw [rounded, rounded']

theorem ofText_spaced (finite : p.isFinite) {a b c d : String}
    (blank : Blank a ∧ Blank b ∧ Blank c ∧ Blank d) :
    ofText (a ++ plain p.x ++ b ++ "," ++ c ++ plain p.y ++ d) = .ok p := by
  apply ofText_of_written
  have left : Padded (a.toList ++ (plainChars p.x ++ b.toList)) (plainChars p.x) :=
    ⟨_, _, rfl, blank.1, blank.2.1⟩
  have right : Padded (c.toList ++ (plainChars p.y ++ d.toList)) (plainChars p.y) :=
    ⟨_, _, rfl, blank.2.2.1, blank.2.2.2⟩
  refine written_of_padded finite ?_ left right
  simp [plain]

/-- The text of a finite point is two plain numbers in parentheses, without an exponent and in the
fewest digits, and without the parentheses it is read as the very same point. Blanks around the
numbers make no difference. -/
theorem ofText_text {p : Position} (finite : p.isFinite) :
    p.text = "(" ++ (plain p.x ++ ", " ++ plain p.y) ++ ")" ∧
    Decimal.Spells (plain p.x).toList p.x ∧ Decimal.Spells (plain p.y).toList p.y ∧
    ofText (plain p.x ++ ", " ++ plain p.y) = .ok p ∧
    ∀ a b c d : String, Blank a ∧ Blank b ∧ Blank c ∧ Blank d →
      ofText (a ++ plain p.x ++ b ++ "," ++ c ++ plain p.y ++ d) = .ok p := by
  obtain ⟨across, down⟩ := isFinite_iff.mp finite
  refine ⟨?_, ?_, ?_, ?_, fun a b c d blank => ofText_spaced finite blank⟩
  · simp [text, String.append_assoc]
  · simpa [plain] using Decimal.spells_plainChars across
  · simpa [plain] using Decimal.spells_plainChars down
  · have spaced := ofText_spaced finite (a := "") (b := "") (c := " ") (d := "") (by decide)
    simpa [String.append_assoc] using spaced

/-- A negative zero and a number with a long text, with a tab, a line break and an unbreakable
blank. -/
theorem ofText_text_zero :
    text ⟨-0, 1e21⟩ = "(-0, 1000000000000000000000)" ∧
    ofText "-0, 1000000000000000000000" = .ok ⟨-0, 1e21⟩ ∧
      ofText "\t-0\u00a0,\n1000000000000000000000 " = .ok ⟨-0, 1e21⟩ := by
  have finite : isFinite (⟨-0, 1e21⟩ : Position) := by decide +kernel
  have x : plain (-0) = "-0" := by decide +kernel
  have y : plain 1e21 = "1000000000000000000000" := by decide +kernel
  have read := ofText_text finite
  rw [x, y] at read
  obtain ⟨shown, -, -, same, spaced⟩ := read
  exact ⟨shown, same, spaced "\t" "\u00a0" "\n" " " (by decide)⟩

section Shown

theorem toList_text (p : Position) :
    p.text.toList = '(' :: (plainChars p.x ++ ',' :: ' ' :: (plainChars p.y ++ [')'])) := by
  simp [text, plain]

theorem plainChars_append_inj {x y : Float} {rest more : List Char} (left : ¬ x.isNaN)
    (right : ¬ y.isNaN) (stops : Text.Stops (fun c => Decimal.Numeric c) rest)
    (stops' : Text.Stops (fun c => Decimal.Numeric c) more)
    (same : plainChars x ++ rest = plainChars y ++ more) : x = y ∧ rest = more := by
  have numeric (x : Float) : ∀ c ∈ plainChars x, decide (Decimal.Numeric c) :=
    fun c member => decide_eq_true (Decimal.numeric_plainChars x c member)
  obtain ⟨chars, behind⟩ := Text.run_inj (numeric x) stops (numeric y) stops' same
  exact ⟨Decimal.plainChars_inj left right chars, behind⟩

/-- Points of numbers have the same text only if they are the same, infinities included. -/
theorem text_inj {q : Position} (left : p.IsNumber) (right : q.IsNumber) (same : p.text = q.text) :
    p = q := by
  rw [← String.toList_inj, toList_text, toList_text] at same
  have opened := List.tail_eq_of_cons_eq same
  obtain ⟨x, behind⟩ := plainChars_append_inj left.1 right.1 (Text.stops_cons.mpr (by decide))
    (Text.stops_cons.mpr (by decide)) opened
  have second := List.tail_eq_of_cons_eq (List.tail_eq_of_cons_eq behind)
  obtain ⟨y, -⟩ := plainChars_append_inj left.2 right.2 (Text.stops_cons.mpr (by decide))
    (Text.stops_cons.mpr (by decide)) second
  cases p
  cases q
  simp_all

@[simp] theorem legible_plain (x : Float) : Text.Legible (plain x) := by
  intro c member
  rw [plain, String.toList_ofList] at member
  exact .inr (Decimal.graphic_of_numeric (Decimal.numeric_plainChars x c member))

@[simp] theorem legible_text (p : Position) : Text.Legible p.text := by
  simp only [text, Text.legible_append, legible_plain]
  decide

end Shown

end TouchGesture.Point
