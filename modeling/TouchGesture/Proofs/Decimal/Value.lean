import Mathlib.Algebra.Order.Field.Rat
import Mathlib.Tactic.FieldSimp
import Mathlib.Tactic.NormNum
import Mathlib.Tactic.Ring
import TouchGesture.Decimal.Shortest

/-! The numbers that decimals are, and what the shortest digits of a double are chosen for. -/

namespace TouchGesture.Decimal

def value (d : Decimal) : ℚ := d.digits * 10 ^ d.exponent

theorem value_nonneg (d : Decimal) : 0 ≤ d.value :=
  mul_nonneg (Nat.cast_nonneg _) (zpow_nonneg (by norm_num) _)

theorem value_power (e : ℤ) : value ⟨1, e⟩ = 10 ^ e := by
  rw [value, Nat.cast_one, one_mul]

def Tidy (d : Decimal) : Prop := d.digits = 0 → d.exponent = 0

theorem value_dropZeros (fuel : Nat) (d : Decimal) : (dropZeros fuel d).value = d.value := by
  induction fuel generalizing d with
  | zero => rfl
  | succ fuel ih =>
      rw [dropZeros]
      split
      · rename_i multiple
        have digits : (d.digits : ℚ) = (d.digits / 10 : ℕ) * 10 := by
          exact_mod_cast (Nat.div_mul_cancel (Nat.dvd_of_mod_eq_zero multiple)).symm
        rw [ih, value, value, digits, zpow_add₀ (by norm_num), zpow_one]
        push_cast
        ring
      · rfl

theorem value_normal (d : Decimal) : d.normal.value = d.value := by
  rw [normal]
  split
  · rename_i none
    simp [value, none]
  · exact value_dropZeros _ d

theorem digits_dropZeros_ne_zero {d : Decimal} (some : d.digits ≠ 0) (fuel : Nat) :
    (dropZeros fuel d).digits ≠ 0 := by
  induction fuel generalizing d with
  | zero => exact some
  | succ fuel ih =>
      rw [dropZeros]
      split
      · exact ih (by simp only; omega)
      · exact some

theorem tidy_normal (d : Decimal) : d.normal.Tidy := by
  intro none
  rw [normal] at none ⊢
  split
  · rfl
  · rename_i some
    rw [if_neg some] at none
    exact absurd none (digits_dropZeros_ne_zero some _)

theorem value_exact (m : Nat) (q : Int) : (exact m q).value = m * 2 ^ q := by
  rw [exact, value]
  simp only [Nat.shiftLeft_eq]
  rcases le_total 0 q with natural | negative
  · obtain ⟨k, rfl⟩ := Int.eq_ofNat_of_zero_le natural
    simp
  · obtain ⟨k, rfl⟩ : ∃ k : Nat, q = -k := ⟨(-q).toNat, by omega⟩
    have powers : (10 : ℚ) ^ k = 5 ^ k * 2 ^ k := by
      rw [← mul_pow]
      norm_num
    simp [powers]
    field_simp

def units (m : Nat) (q e : Int) : Nat := (ratio m q e).1 / (ratio m q e).2

theorem neighbour_of_onGrid {tie : Tie} {x : Float} {m : Nat} {q e : Int} {d : Decimal}
    (found : onGrid tie x m q e = some d) :
    (d = ⟨units m q e, e⟩ ∨ d = ⟨units m q e + 1, e⟩) ∧ d.toFloat = x := by
  simp only [onGrid] at found
  split at found
  · rename_i low high
    have left : (⟨units m q e, e⟩ : Decimal).toFloat = x := of_decide_eq_true low
    have right : (⟨units m q e + 1, e⟩ : Decimal).toFloat = x := of_decide_eq_true high
    split at found
    all_goals cases found
    · exact ⟨.inl rfl, left⟩
    · exact ⟨.inr rfl, right⟩
    · exact ⟨.inr rfl, right⟩
    · split
      · exact ⟨.inl rfl, left⟩
      · exact ⟨.inr rfl, right⟩
  · rename_i low high
    cases found
    exact ⟨.inl rfl, of_decide_eq_true low⟩
  · rename_i low high
    cases found
    exact ⟨.inr rfl, of_decide_eq_true high⟩
  · cases found

/-- The shortest digits are those of a decimal that reads back to the double, or else of the very
number that it is. -/
theorem shortest_cases (tie : Tie) (x : Float) (m : Nat) (q : Int) :
    (∃ d : Decimal, d.toFloat = x ∧ shortest tie x m q = d.normal) ∨
      (shortest tie x m q).value = m * 2 ^ q := by
  rw [shortest]
  cases found : (List.range 17).findSome? fun n : Nat => onGrid tie x m q (scale m q - 1 - n) with
  | none =>
      right
      rw [Option.getD_none, value_normal, value_exact]
  | some d =>
      left
      obtain ⟨n, -, grid⟩ := List.exists_of_findSome?_eq_some found
      exact ⟨d, (neighbour_of_onGrid grid).2, rfl⟩

end TouchGesture.Decimal
