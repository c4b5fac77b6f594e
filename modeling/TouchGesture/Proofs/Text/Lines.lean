import TouchGesture.Proofs.Text.Blank

/-! The lines of a text. -/

namespace TouchGesture.Text

def cut : List Char → List (List Char)
  | [] => []
  | c :: cs =>
      if c = '\n' then [] :: cut cs
      else
        match cut cs with
        | [] => [[c]]
        | line :: others => (c :: line) :: others

def lines (s : String) : List String := (cut s.toList).map String.ofList

def unlines (ls : List String) : String := String.join (ls.map fun l => l ++ "\n")

theorem unlines_append (ls ms : List String) : unlines (ls ++ ms) = unlines ls ++ unlines ms := by
  rw [← String.toList_inj]
  simp [unlines, String.toList_join]

theorem unlines_singleton (l : String) : unlines [l] = l ++ "\n" := by
  rw [← String.toList_inj]
  simp [unlines]

def Legible (l : String) : Prop := ∀ c ∈ l.toList, c = ' ' ∨ Graphic c

instance (l : String) : Decidable (Legible l) := List.decidableBAll _ l.toList

theorem cut_append {cs : List Char} (one : '\n' ∉ cs) (rest : List Char) :
    cut (cs ++ '\n' :: rest) = cs :: cut rest := by
  induction cs with
  | nil => rfl
  | cons c cs ih =>
      rw [List.mem_cons, not_or] at one
      rw [List.cons_append, cut, if_neg (Ne.symm one.1), ih one.2]

theorem lines_unlines {ls : List String} (single : ∀ l ∈ ls, '\n' ∉ l.toList) :
    lines (unlines ls) = ls := by
  have pieces : cut (unlines ls).toList = ls.map String.toList := by
    rw [unlines, String.toList_join, List.flatMap_map]
    induction ls with
    | nil => rfl
    | cons l ls ih =>
        rw [List.forall_mem_cons] at single
        rw [List.flatMap_cons, String.toList_append, List.append_assoc]
        exact (cut_append single.1 _).trans (congrArg _ (ih single.2))
  rw [lines, pieces, List.map_map]
  simp

theorem not_newline_mem {l : String} (legible : Legible l) : '\n' ∉ l.toList := by
  intro member
  rcases legible '\n' member with blank | graphic
  · exact absurd blank (by decide)
  · exact absurd graphic.1 (by decide)

@[simp] theorem legible_append {l m : String} : Legible (l ++ m) ↔ Legible l ∧ Legible m := by
  rw [Legible, String.toList_append, List.forall_mem_append, Legible, Legible]

@[simp] theorem legible_digits (n : Nat) : Legible (toString n) := by
  intro c member
  rw [Nat.toString_eq_repr, Nat.toList_repr] at member
  exact .inr (graphic_of_isDigit (isDigit_toDigits n c member))

end TouchGesture.Text
