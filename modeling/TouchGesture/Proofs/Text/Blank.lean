import Mathlib.Tactic.ByContra
import TouchGesture.Proofs.Text.Digits
import TouchGesture.Text.Blank

/-! What is left of a text when the blanks around it are gone. -/

namespace TouchGesture.Text

def Graphic (c : Char) : Prop := 0x20 < c.toNat ∧ c.toNat < 0x7F

instance (c : Char) : Decidable (Graphic c) :=
  inferInstanceAs (Decidable (0x20 < c.toNat ∧ c.toNat < 0x7F))

def Blank (s : String) : Prop := ∀ c ∈ s.toList, isBlank c

instance (s : String) : Decidable (Blank s) := List.decidableBAll _ s.toList

def Padded (cs core : List Char) : Prop :=
  ∃ front back, cs = front ++ (core ++ back) ∧ (∀ c ∈ front, isBlank c) ∧
    ∀ c ∈ back, isBlank c

section Characters

variable {c : Char}

theorem isBlank_of_graphic (graphic : Graphic c) : isBlank c = false := by
  obtain ⟨low, high⟩ := graphic
  by_contra blank
  simp only [isBlank, Bool.not_eq_false, Bool.or_eq_true, Bool.and_eq_true,
    decide_eq_true_eq] at blank
  omega

theorem graphic_of_isDigit (digit : c.isDigit) : Graphic c := by
  have code : 48 ≤ c.toNat ∧ c.toNat ≤ 57 := Char.isDigit_iff_toNat.mp digit
  exact ⟨by omega, by omega⟩

theorem toNat_of_isAlpha (letter : c.isAlpha) : 65 ≤ c.toNat ∧ c.toNat ≤ 122 := by
  change (c.isUpper || c.isLower) = true at letter
  rcases (Bool.or_eq_true _ _).mp letter with upper | lower
  · obtain ⟨low, high⟩ : c.val ≥ 'A'.val ∧ c.val ≤ 'Z'.val := of_decide_eq_true upper
    exact ⟨low, Nat.le_trans high (by decide)⟩
  · change (decide (c.val ≥ 'a'.val) && decide (c.val ≤ 'z'.val)) = true at lower
    obtain ⟨low, high⟩ := Bool.and_eq_true_iff.mp lower
    exact ⟨Nat.le_trans (by decide) (of_decide_eq_true low), of_decide_eq_true high⟩

theorem graphic_of_isAlpha (letter : c.isAlpha) : Graphic c := by
  obtain ⟨low, high⟩ := toNat_of_isAlpha letter
  exact ⟨by omega, by omega⟩

theorem not_isDigit_of_isAlpha (letter : c.isAlpha) : ¬ c.isDigit := by
  intro digit
  have code : 48 ≤ c.toNat ∧ c.toNat ≤ 57 := Char.isDigit_iff_toNat.mp digit
  have code' := toNat_of_isAlpha letter
  omega

end Characters

variable {cs core back : List Char}

theorem isBlank_of_mem_takeWhile {c : Char} (member : c ∈ cs.takeWhile isBlank) : isBlank c :=
  List.all_eq_true.mp List.all_takeWhile c member

theorem padded_trim (cs : List Char) : Padded cs (trim cs) := by
  refine ⟨cs.takeWhile isBlank, ((cs.dropWhile isBlank).reverse.takeWhile isBlank).reverse, ?_,
    fun c member => isBlank_of_mem_takeWhile member,
    fun c member => isBlank_of_mem_takeWhile (List.mem_reverse.mp member)⟩
  rw [trim, ← List.reverse_append, List.takeWhile_append_dropWhile, List.reverse_reverse,
    List.takeWhile_append_dropWhile]

theorem trim_eq_of_padded (padded : Padded cs core) (graphic : ∀ c ∈ core, Graphic c) :
    trim cs = core := by
  obtain ⟨front, back, rfl, blank, blank'⟩ := padded
  have visible : ∀ c ∈ core, isBlank c = false :=
    fun c member => isBlank_of_graphic (graphic c member)
  rw [trim, List.dropWhile_append_of_pos blank]
  cases core with
  | nil =>
      have gone : back.dropWhile isBlank = [] := by simpa using dropWhile_run blank' stops_nil
      rw [List.nil_append, gone]
      rfl
  | cons c core =>
      have front : Stops isBlank (c :: core ++ back) :=
        stops_cons.mpr (visible c List.mem_cons_self)
      have reversed : Stops isBlank (c :: core).reverse :=
        fun c first => visible c (List.mem_reverse.mp (List.mem_of_mem_head? first))
      have tail : ∀ c ∈ back.reverse, isBlank c :=
        fun c member => blank' c (List.mem_reverse.mp member)
      rw [dropWhile_stops front, List.reverse_append, dropWhile_run tail reversed,
        List.reverse_reverse]

theorem trim_eq_nil_iff : trim cs = [] ↔ ∀ c ∈ cs, isBlank c := by
  constructor
  · intro nothing
    obtain ⟨front, back, text, blank, blank'⟩ := padded_trim cs
    rw [nothing, List.nil_append] at text
    rw [text]
    intro c member
    exact (List.mem_append.mp member).elim (blank c) (blank' c)
  · intro blank
    exact trim_eq_of_padded ⟨cs, [], by simp, blank, nofun⟩ nofun

end TouchGesture.Text
