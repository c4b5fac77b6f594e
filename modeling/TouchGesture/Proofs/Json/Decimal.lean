import Mathlib.Tactic.Ring
import Mathlib.Tactic.SplitIfs
import TouchGesture.Proofs.Decimal.Value
import TouchGesture.Proofs.Json.Numeral

/-! How a decimal is written as a number in JSON, and what is read of a number that is not written
as an integer. -/

namespace TouchGesture.Json.Numeral

def decimal (n : Numeral) : Decimal where
  digits := Nat.ofDigitChars 10 (n.whole ++ n.fraction) 0
  exponent :=
    (if n.exponentNegative then -(Nat.ofDigitChars 10 n.exponent 0 : Int)
      else Nat.ofDigitChars 10 n.exponent 0) - n.fraction.length

section Writing

variable {negative : Bool} {d : Decimal}

theorem negative_ofDecimal : (ofDecimal negative d).negative = negative := by
  simp only [ofDecimal]
  split_ifs <;> rfl

theorem pointed_ofDecimal (negative : Bool) (d : Decimal) :
    (ofDecimal negative d).fraction ≠ [] ∨ (ofDecimal negative d).exponent ≠ [] := by
  simp only [ofDecimal]
  split_ifs with scientific whole positional
  · exact .inr Nat.toDigits_ne_nil
  · exact .inl (List.cons_ne_nil _ _)
  · left
    rw [Decimal.leading] at positional ⊢
    simp only [ne_eq, List.drop_eq_nil_iff]
    omega
  · exact .inl (List.append_ne_nil_of_right_ne_nil _ Nat.toDigits_ne_nil)

theorem plain_ofDecimal (tidy : d.Tidy) : (ofDecimal negative d).Plain := by
  have digits := Text.isDigit_toDigits d.digits
  have some : Nat.toDigits 10 d.digits ≠ [] := Nat.toDigits_ne_nil
  have zeros (k : Nat) : ∀ c ∈ List.replicate k '0', c.isDigit := by
    intro c member
    rw [List.eq_of_mem_replicate member]
    rfl
  simp only [ofDecimal]
  split_ifs with scientific whole positional
  · exact {
      whole := fun c member => digits c (List.mem_of_mem_take member)
      some_whole := by simp
      unpadded := fun _ => List.length_take_le 1 _
      fraction := fun c member => digits c (List.mem_of_mem_drop member)
      exponent := Text.isDigit_toDigits _
      unsigned := fun none => absurd none Nat.toDigits_ne_nil }
  · exact {
      whole := by
        intro c member
        rcases List.mem_append.mp member with digit | zero
        · exact digits c digit
        · exact zeros _ c zero
      some_whole := List.append_ne_nil_of_left_ne_nil some _
      unpadded := by
        intro padded
        rw [List.head?_append, Option.or_of_isSome (List.isSome_head?.mpr some)] at padded
        have none := Text.eq_zero_of_head_toDigits padded
        simp [none, tidy none]
      fraction := zeros 1
      exponent := nofun
      unsigned := fun _ => rfl }
  · exact {
      whole := fun c member => digits c (List.mem_of_mem_take member)
      some_whole := by simp
      unpadded := by
        intro padded
        rw [List.head?_take, if_neg (Nat.succ_ne_zero _)] at padded
        have none := Text.eq_zero_of_head_toDigits padded
        simp [none]
      fraction := fun c member => digits c (List.mem_of_mem_drop member)
      exponent := nofun
      unsigned := fun _ => rfl }
  · exact {
      whole := zeros 1
      some_whole := List.cons_ne_nil _ _
      unpadded := fun _ => Nat.le_refl 1
      fraction := by
        intro c member
        rcases List.mem_append.mp member with zero | digit
        · exact zeros _ c zero
        · exact digits c digit
      exponent := nofun
      unsigned := fun _ => rfl }

theorem decimal_ofDecimal (negative : Bool) (d : Decimal) :
    (ofDecimal negative d).decimal = d ∨
      0 ≤ d.exponent ∧
        (ofDecimal negative d).decimal = ⟨d.digits * 10 ^ (d.exponent.toNat + 1), -1⟩ := by
  have value : Nat.ofDigitChars 10 (Nat.toDigits 10 d.digits) 0 = d.digits :=
    Nat.ofDigitChars_ten_toDigits
  have some : 0 < (Nat.toDigits 10 d.digits).length := List.length_pos_iff.mpr Nat.toDigits_ne_nil
  obtain ⟨n, e⟩ := d
  simp only at value some
  by_cases scientific : Decimal.leading ⟨n, e⟩ < -5 ∨ 16 ≤ Decimal.leading ⟨n, e⟩
  · left
    simp only [ofDecimal, if_pos scientific, decimal, List.take_append_drop, value,
      Nat.ofDigitChars_ten_toDigits, List.length_drop, Decimal.mk.injEq, true_and,
      decide_eq_true_eq]
    rw [Decimal.leading]
    simp only
    split_ifs <;> omega
  by_cases whole : 0 ≤ e
  · right
    refine ⟨whole, ?_⟩
    simp only [ofDecimal, if_neg scientific, if_pos whole, decimal, Nat.ofDigitChars_append, value,
      Nat.ofDigitChars_replicate_zero, Decimal.mk.injEq]
    constructor
    · rw [Nat.ofDigitChars_cons, Nat.ofDigitChars_nil, Nat.sub_self, Nat.pow_succ]
      ring
    · rfl
  by_cases positional : 0 ≤ Decimal.leading ⟨n, e⟩
  · left
    simp only [ofDecimal, if_neg scientific, if_neg whole, if_pos positional, decimal,
      List.take_append_drop, value, List.length_drop, Decimal.mk.injEq, true_and,
      Nat.ofDigitChars_nil]
    rw [Decimal.leading] at positional ⊢
    simp only at positional ⊢
    omega
  · left
    simp only [ofDecimal, if_neg scientific, if_neg whole, if_neg positional, decimal,
      List.length_append, List.length_replicate, Decimal.mk.injEq, Nat.ofDigitChars_nil]
    constructor
    · rw [Nat.ofDigitChars_append, Nat.ofDigitChars_append, Nat.ofDigitChars_cons,
        Nat.ofDigitChars_nil, Nat.ofDigitChars_replicate_zero]
      exact value
    · rw [Decimal.leading] at positional ⊢
      simp only [Bool.false_eq_true, if_false] at positional ⊢
      omega

theorem whole_ofDecimal_few (negative : Bool) (tidy : d.Tidy) :
    Nat.ofDigitChars 10 (ofDecimal negative d).whole 0 < UInt64.size := by
  have digits : ∀ c ∈ (ofDecimal negative d).whole, c.isDigit := (plain_ofDecimal tidy).whole
  have short : (ofDecimal negative d).whole.length ≤ 16 := by
    simp only [ofDecimal]
    rw [Decimal.leading]
    split_ifs with scientific whole positional
    · exact (List.length_take_le _ _).trans (by decide)
    · simp only [List.length_append, List.length_replicate]
      omega
    · refine (List.length_take_le _ _).trans ?_
      omega
    · exact Nat.succ_le_succ (Nat.zero_le 15)
  calc Nat.ofDigitChars 10 (ofDecimal negative d).whole 0
      < (0 + 1) * 10 ^ (ofDecimal negative d).whole.length := ofDigitChars_lt digits
    _ ≤ 1 * 10 ^ 16 := Nat.mul_le_mul_left _ (Nat.pow_le_pow_right (by decide) short)
    _ < UInt64.size := by decide

end Writing

section Reading

variable {n : Numeral}

def kept (n : Numeral) : Decimal where
  digits := (gather (Nat.ofDigitChars 10 n.whole 0) n.fraction).1
  exponent := n.decimal.exponent + (gather (Nat.ofDigitChars 10 n.whole 0) n.fraction).2.length

theorem kept_ofDecimal (negative : Bool) (d : Decimal) :
    (ofDecimal negative d).kept = (ofDecimal false d).kept := by
  simp only [ofDecimal]
  split_ifs <;> rfl

theorem kept_eq (few : n.decimal.digits < UInt64.size) : n.kept = n.decimal := by
  have digits : n.decimal.digits = Nat.ofDigitChars 10 n.fraction (Nat.ofDigitChars 10 n.whole 0) :=
    Nat.ofDigitChars_append 0
  rw [digits] at few
  have all := (gather_eq (Nat.lt_of_le_of_lt le_ofDigitChars few)).1 few
  simp only [kept, all, ← digits, List.length_nil, Nat.cast_zero, add_zero]

section Whole

variable (first : Nat.ofDigitChars 10 n.whole 0 < UInt64.size)
include first

theorem kept_few : n.kept.digits < UInt64.size := (gather_le first).1

theorem value_kept_le : n.kept.value ≤ n.decimal.value := by
  have less : ((gather (Nat.ofDigitChars 10 n.whole 0) n.fraction).1 : ℚ) *
      10 ^ (gather (Nat.ofDigitChars 10 n.whole 0) n.fraction).2.length ≤ n.decimal.digits := by
    rw [decimal, Nat.ofDigitChars_append]
    exact_mod_cast (gather_le first).2
  rw [kept, Decimal.value, Decimal.value, add_comm, zpow_add₀ (by norm_num), zpow_natCast,
    ← mul_assoc]
  exact mul_le_mul_of_nonneg_right less (zpow_nonneg (by norm_num) _)

/-- A number that is not written as an integer scales the digits that are kept of it. -/
theorem amount?_pointed (pointed : n.fraction ≠ [] ∨ n.exponent ≠ []) :
    n.amount? = (scaled? n.kept.digits n.kept.exponent).map fun x =>
      .double (if n.negative then -x else x) := by
  have whole : gather 0 n.whole = (Nat.ofDigitChars 10 n.whole 0, []) :=
    (gather_eq (by decide)).1 first
  have other : ¬ (n.fraction.isEmpty ∧ n.exponent.isEmpty ∧ ([] : List Char).isEmpty) := by
    simpa using fun none => pointed.resolve_left (not_not_intro none)
  have exponent : n.kept.exponent =
      ((0 : Nat) : Int) -
        (n.fraction.length - (gather (Nat.ofDigitChars 10 n.whole 0) n.fraction).2.length) +
      (if n.exponentNegative then -(Nat.ofDigitChars 10 n.exponent 0 : Int)
        else Nat.ofDigitChars 10 n.exponent 0) := by
    simp only [kept, decimal]
    omega
  simp only [amount?, whole, if_neg other]
  rw [exponent]
  rfl

end Whole

end Reading

end TouchGesture.Json.Numeral
