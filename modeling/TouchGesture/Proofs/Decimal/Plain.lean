import Mathlib.Tactic.Ring
import TouchGesture.Decimal.Text
import TouchGesture.Proofs.Decimal.Reading
import TouchGesture.Proofs.Decimal.Shortest

/-! The plain texts of doubles are literals without an exponent and of the fewest digits, and each
is read as its double. -/

namespace TouchGesture.Decimal

open Float.Model Float.Model.UnpackedFloat
open Double (ofMagnitude)

section Positional

variable {d : Decimal}

theorem isDigit_replicate_zero (k : Nat) : ∀ c ∈ List.replicate k '0', c.isDigit := by
  intro c member
  rw [List.eq_of_mem_replicate member]
  rfl

theorem ofDigitChars_digits (d : Decimal) :
    Nat.ofDigitChars 10 (Nat.toDigits 10 d.digits) 0 = d.digits :=
  Nat.ofDigitChars_ten_toDigits

def wholeFigures (d : Decimal) : Figures where
  whole := Nat.toDigits 10 d.digits ++ List.replicate d.exponent.toNat '0'
  fraction := none
  raise := none
  decimal_whole :=
    List.forall_mem_append.mpr ⟨Text.isDigit_toDigits _, isDigit_replicate_zero _⟩
  decimal_fraction := nofun
  filled := by simp [Nat.toDigits_ne_nil]

def splitFigures (d : Decimal) (places : Nat) : Figures where
  whole := (Nat.toDigits 10 d.digits).take ((Nat.toDigits 10 d.digits).length - places)
  fraction := some ((Nat.toDigits 10 d.digits).drop ((Nat.toDigits 10 d.digits).length - places))
  raise := none
  decimal_whole := fun c member => Text.isDigit_toDigits _ c (List.mem_of_mem_take member)
  decimal_fraction := fun c member => Text.isDigit_toDigits _ c (List.mem_of_mem_drop member)
  filled := by simp [Nat.toDigits_ne_nil]

def smallFigures (d : Decimal) (places : Nat) : Figures where
  whole := ['0']
  fraction := some
    (List.replicate (places - (Nat.toDigits 10 d.digits).length) '0' ++ Nat.toDigits 10 d.digits)
  raise := none
  decimal_whole := isDigit_replicate_zero 1
  decimal_fraction :=
    List.forall_mem_append.mpr ⟨isDigit_replicate_zero _, Text.isDigit_toDigits _⟩
  filled := by simp

theorem value_wholeFigures (whole : 0 ≤ d.exponent) :
    (wholeFigures d).number.value = d.value := by
  have digits : Nat.ofDigitChars 10 (wholeFigures d).digits 0 =
      10 ^ d.exponent.toNat * d.digits := by
    rw [Figures.digits, wholeFigures, Option.getD_none, List.append_nil, Nat.ofDigitChars_append,
      ofDigitChars_digits, Nat.ofDigitChars_replicate_zero]
  have power : (10 : ℚ) ^ d.exponent = 10 ^ d.exponent.toNat := by
    rw [← zpow_natCast, Int.toNat_of_nonneg whole]
  rw [value, value, Figures.number, digits, power]
  simp only [wholeFigures, Option.elim_none, Option.getD_none, List.length_nil, Nat.cast_zero,
    sub_zero, zpow_zero, mul_one]
  push_cast
  ring

theorem number_splitFigures {places : Nat} (few : places ≤ (Nat.toDigits 10 d.digits).length) :
    (splitFigures d places).number = ⟨d.digits, -places⟩ := by
  simp only [Figures.number, Figures.digits, splitFigures, Option.getD_some, List.take_append_drop,
    ofDigitChars_digits, Option.elim_none, List.length_drop, mk.injEq, true_and]
  omega

theorem number_smallFigures {places : Nat} (many : (Nat.toDigits 10 d.digits).length ≤ places) :
    (smallFigures d places).number = ⟨d.digits, -places⟩ := by
  have zero : Nat.ofDigitChars 10 ['0'] 0 = 0 := rfl
  simp only [Figures.number, Figures.digits, smallFigures, Option.getD_some,
    Nat.ofDigitChars_append, zero, Nat.ofDigitChars_replicate_zero, Nat.mul_zero,
    ofDigitChars_digits, Option.elim_none, List.length_append, List.length_replicate, mk.injEq,
    true_and]
  omega

theorem exists_positional (d : Decimal) :
    ∃ f : Figures, f.chars = positional d ∧ f.raise = none ∧ f.number.value = d.value := by
  by_cases whole : 0 ≤ d.exponent
  · refine ⟨wholeFigures d, ?_, rfl, value_wholeFigures whole⟩
    have none : (-d.exponent).toNat = 0 := by omega
    simp [positional, none, wholeFigures, Figures.chars, pointed, raised]
  have places : d.exponent = -((-d.exponent).toNat : Int) := by omega
  have some : (-d.exponent).toNat ≠ 0 := by omega
  have same : (⟨d.digits, -((-d.exponent).toNat : Int)⟩ : Decimal) = d := by rw [← places]
  by_cases few : (-d.exponent).toNat < (Nat.toDigits 10 d.digits).length
  · refine ⟨splitFigures d (-d.exponent).toNat, ?_, rfl, ?_⟩
    · simp only [positional, if_neg some, if_pos few, splitFigures, Figures.chars, pointed, raised,
        List.append_nil]
    · rw [number_splitFigures few.le, same]
  · refine ⟨smallFigures d (-d.exponent).toNat, ?_, rfl, ?_⟩
    · simp only [positional, if_neg some, if_neg few, smallFigures, Figures.chars, pointed, raised,
        List.append_nil]
      rfl
    · rw [number_smallFigures (not_lt.mp few), same]

end Positional

def Lead.ofSign : Sign → Lead
  | .positive => .bare
  | .negative => .minus

theorem Lead.sign_ofSign (s : Sign) : (Lead.ofSign s).sign = s := by
  cases s <;> rfl

theorem Lead.chars_ofSign (s : Sign) (cs : List Char) :
    (Lead.ofSign s).chars ++ cs = signed s cs := by
  cases s <;> rfl

theorem exists_signed (s : Sign) (d : Decimal) :
    ∃ l : Literal, l.chars = signed s (positional d) ∧
    l.raise = none ∧ l.number.value = d.value ∧ l.rounded = ofMagnitude s d.value := by
  obtain ⟨f, text, plain, number⟩ := exists_positional d
  refine ⟨⟨f, .ofSign s⟩, ?_, plain, number, ?_⟩
  · rw [Literal.chars, Lead.chars_ofSign, text]
  · rw [Literal.rounded, Lead.sign_ofSign, number]

variable {x : Float}

theorem ofMagnitude_of_unpack {s : Sign} {m : ℕ} {q : ℤ} {positive : 0 < m} {v : ℚ}
    (unpacked : x.toModel.unpack = .finite s m q positive) (nearest : Double.Nearest x.abs v)
    (some : 0 < v) : ofMagnitude s v = x := by
  have magnitude : x.abs = ofMagnitude .positive v := nearest.eq_ofMagnitude some
  cases s with
  | positive => rw [← magnitude, Double.abs_of_positive unpacked]
  | negative =>
      calc ofMagnitude .negative v
          = -ofMagnitude .positive v := (Double.neg_ofMagnitude .positive some.le).symm
        _ = -x.abs := by rw [magnitude]
        _ = x := Double.neg_abs_of_negative unpacked

theorem toFloat_of_rounded {s : Sign} {m : ℕ} {q : ℤ} {positive : 0 < m}
    (unpacked : x.toModel.unpack = .finite s m q positive) {l : Literal} (rounded : l.rounded = x) :
    l.number.toFloat = x.abs := by
  have finite : l.rounded.isFinite := by
    rw [rounded]
    exact Double.isFinite_of_unpack unpacked
  have magnitude := Double.exact_abs unpacked
  have read : |Double.exact x| = Double.rounded l.number.value := by
    have nearest := Double.nearest_ofMagnitude l.lead.sign l.number.value_nonneg
    rw [← rounded, Literal.rounded, nearest.exact_eq finite, Double.abs_rounded, abs_mul,
      Double.abs_factor, one_mul, abs_of_nonneg l.number.value_nonneg,
      Double.rounded_of_nonneg l.number.value_nonneg]
  rw [toFloat_eq_iff (Double.isFinite_abs unpacked) (by rw [magnitude]; positivity), ← read,
    magnitude]
  exact ⟨l.isFinite_rounded_iff.mp finite, Double.abs_exact unpacked⟩

/-- A text of a double without an exponent, in the fewest digits that any literal has that is
rounded to it. -/
def Spells (cs : List Char) (x : Float) : Prop :=
  ∃ l : Literal, l.chars = cs ∧ l.raise = none ∧ l.rounded = x ∧
    ∀ other : Literal, other.rounded = x → ∀ n, HasDigits n other.number.value →
      HasDigits n l.number.value

/-- The text of a finite double spells it. -/
theorem spells_plainChars (finite : x.isFinite) : Spells (plainChars x) x := by
  have same := Double.ofModel_pack_unpack finite
  change x.toModel.unpack.isFinite at finite
  rw [plainChars]
  cases unpacked : x.toModel.unpack with
  | notANumber | infinity s =>
      rw [unpacked] at finite
      cases finite
  | zero s =>
      obtain ⟨l, text, plain, number, rounded⟩ := exists_signed s ⟨0, 0⟩
      have none : value ⟨0, 0⟩ = 0 := zero_mul _
      rw [none] at number rounded
      refine ⟨l, text, plain, ?_, ?_⟩
      · rw [rounded, Double.ofMagnitude_of_lt_least le_rfl (by positivity), ← unpacked, same]
      · intro other _ n _
        rw [number]
        exact hasDigits_zero n
  | finite s m q positive =>
      obtain ⟨l, text, plain, number, rounded⟩ := exists_signed s (shortest .up x.abs m q)
      have abs := Double.isFinite_abs unpacked
      have magnitude := Double.exact_abs unpacked
      refine ⟨l, text, plain, ?_, ?_⟩
      · rw [rounded]
        exact ofMagnitude_of_unpack unpacked (nearest_shortest abs magnitude)
          (value_shortest_pos abs magnitude positive)
      · intro other reads n few
        rw [number]
        exact shortest_fewest (Double.unpack_abs unpacked) (toFloat_of_rounded unpacked reads) few

theorem denotes_plainChars (number : ¬ x.isNaN) : Denotes (plainChars x) x := by
  by_cases finite : x.isFinite
  · obtain ⟨l, text, -, rounded, -⟩ := spells_plainChars finite
    have denotes := Denotes.literal l
    rwa [text, rounded] at denotes
  · obtain ⟨s, unpacked⟩ := Double.exists_infinity number finite
    have word : Word ['i', 'n', 'f'] .infinity := .infinity (by simp)
    have denotes := Denotes.word (.ofSign s) word
    have same := Double.ofModel_pack_infinity unpacked
    rw [Lead.chars_ofSign] at denotes
    rw [plainChars, unpacked, ← same]
    cases s with
    | positive => exact denotes
    | negative => exact denotes

theorem numeric_plainChars (x : Float) : ∀ c ∈ plainChars x, Numeric c := by
  by_cases number : x.isNaN
  · have nan : plainChars x = ['N', 'a', 'N'] := by
      change x.toModel.unpack.isNaN at number
      rw [plainChars]
      cases unpacked : x.toModel.unpack with
      | notANumber => rfl
      | infinity s | zero s | finite s m q positive =>
          rw [unpacked] at number
          cases number
    rw [nan]
    exact numeric_letters (by simp)
  · exact numeric_of_denotes (denotes_plainChars number)

theorem plainChars_inj {y : Float} (left : ¬ x.isNaN) (right : ¬ y.isNaN)
    (same : plainChars x = plainChars y) :
    x = y := by
  have read := literal_eq_ok_iff.mpr (denotes_plainChars left)
  rw [same, literal_eq_ok_iff.mpr (denotes_plainChars right)] at read
  exact (Except.ok.inj read).symm

theorem numeric_signed {cs : List Char} (numeric : ∀ c ∈ cs, Numeric c) (s : Sign) :
    ∀ c ∈ signed s cs, Numeric c := by
  rw [← Lead.chars_ofSign, List.forall_mem_append]
  exact ⟨numeric_lead _, numeric⟩

theorem numeric_fixedLayout (places m : Nat) (q : Int) :
    ∀ c ∈ fixedLayout places m q, Numeric c := by
  have digits (k n : Nat) : ∀ c ∈ List.replicate k '0' ++ Nat.toDigits 10 n, Numeric c :=
    numeric_digits
      (List.forall_mem_append.mpr ⟨isDigit_replicate_zero k, Text.isDigit_toDigits n⟩)
  rw [fixedLayout, List.forall_mem_append, List.forall_mem_cons]
  refine ⟨?_, .inr (.inr (by decide)), ?_⟩
  · intro c member
    exact digits _ _ c (List.mem_of_mem_take member)
  · intro c member
    exact digits _ _ c (List.mem_of_mem_drop member)

theorem numeric_fixedChars (places : Nat) (x : Float) :
    ∀ c ∈ fixedChars places x, Numeric c := by
  rw [fixedChars]
  cases x.toModel.unpack with
  | notANumber => exact numeric_letters (by simp)
  | infinity s => exact numeric_signed (numeric_letters (by simp)) s
  | zero s => exact numeric_signed (numeric_fixedLayout places 0 0) s
  | finite s m q positive => exact numeric_signed (numeric_fixedLayout places m q) s

end TouchGesture.Decimal
