import TouchGesture.Proofs.Yaml.Line
import TouchGesture.Yaml.Value

/-! Plain scalars that are integers mean what they say. -/

namespace TouchGesture.Yaml

variable {ds : List Char} {n : Nat}

theorem digit_value {c : Char} (digit : c.isDigit) :
    (Text.hexDigit? c).filter (· < 10) = some (c.toNat - '0'.toNat) := by
  simp only [Char.isDigit, Bool.and_eq_true, decide_eq_true_eq] at digit
  have most : c.toNat ≤ '9'.toNat := UInt32.le_iff_toNat_le.mp digit.2
  have small : c.toNat - '0'.toNat < 10 := by
    simp only [show '9'.toNat = 57 from rfl, show '0'.toNat = 48 from rfl] at most ⊢
    omega
  have value : Text.hexDigit? c = some (c.toNat - '0'.toNat) := if_pos digit
  rw [value, Option.filter_some, if_pos (decide_eq_true small)]

theorem digits?_isDigit (digits : ∀ c ∈ ds, c.isDigit) (some_digit : ds ≠ []) :
    digits? 10 ds = some (Nat.ofDigitChars 10 ds 0) := by
  have folded (n : Nat) :
      ds.foldlM (fun n c => ((Text.hexDigit? c).filter (· < 10)).map fun d => n * 10 + d) n =
        some (Nat.ofDigitChars 10 ds n) := by
    clear some_digit
    induction ds generalizing n with
    | nil => simp
    | cons c ds ih =>
        have value := digit_value (digits c List.mem_cons_self)
        have others :=
          ih (fun d member => digits d (.tail c member)) (n * 10 + (c.toNat - '0'.toNat))
        rw [List.foldlM_cons, value, Option.map_some, Option.bind_eq_bind, Option.bind_some, others,
          Nat.ofDigitChars_cons, Nat.mul_comm n 10]
  simpa [digits?, some_digit] using folded 0

theorem magnitude?_toDigits : magnitude? (Nat.toDigits 10 n) = some n := by
  have digits := Text.isDigit_toDigits n
  have value : digits? 10 (Nat.toDigits 10 n) = some n := by
    rw [digits?_isDigit digits Nat.toDigits_ne_nil, Nat.ofDigitChars_ten_toDigits]
  obtain ⟨d, ds, written⟩ := List.exists_cons_of_ne_nil (Nat.toDigits_ne_nil (b := 10) (n := n))
  by_cases zero : d = '0'
  · have nothing : n = 0 := Text.eq_zero_of_head_toDigits (by rw [written, zero]; rfl)
    rw [nothing]
    decide
  · have unbased : based? (d :: ds) = none := by
      simp [based?, zero]
    have unpadded : decimal? (d :: ds) = digits? 10 (d :: ds) := by
      simp [decimal?, zero]
    rw [written] at value ⊢
    simp only [magnitude?, unbased, unpadded, value]

theorem unsigned?_toDigits : unsigned? (Nat.toDigits 10 n) = some n := by
  obtain ⟨d, ds, written⟩ := List.exists_cons_of_ne_nil (Nat.toDigits_ne_nil (b := 10) (n := n))
  have unsigned : d ≠ '+' := by
    rintro rfl
    have digit := Text.isDigit_toDigits n '+' (written ▸ List.mem_cons_self)
    exact absurd digit (by decide)
  have magnitude := magnitude?_toDigits (n := n)
  rw [written] at magnitude ⊢
  simp [unsigned?, unsigned, magnitude]

theorem unsigned?_minus : unsigned? ('-' :: ds) = none := by
  have unread : digits? 10 ('-' :: ds) = none := by
    simp [digits?, Text.hexDigit?]
  simp [unsigned?, magnitude?, based?, decimal?, unread]

/-- Where a field takes an integer, it takes those of its range and no others. -/
theorem unsigned_integerText {size : Nat} {kind : String}
    (narrow : size ≤ UInt64.size) (i : Int) :
    (unsigned size kind (.scalar none .plain (String.ofList (integerText i)))).toOption =
      if 0 ≤ i ∧ i < size then some i.toNat else none := by
  by_cases negative : i < 0
  · have text : integerText i = '-' :: Nat.toDigits 10 i.natAbs := by
      simp [integerText, negative]
    have outside : ¬ (0 ≤ i ∧ i < size) := by omega
    rw [if_neg outside]
    simp [unsigned, text, unsigned?_minus, Except.toOption]
  · obtain ⟨n, rfl⟩ := Int.eq_ofNat_of_zero_le (Int.not_lt.mp negative)
    have text : unsigned? (integerText (n : Int)) = some n := by
      simp [integerText, negative, unsigned?_toDigits]
    by_cases fits : n < size
    · have word : n < UInt64.size := by omega
      simp [unsigned, text, Option.filter_some, word, fits, Except.toOption]
    · by_cases word : n < UInt64.size <;>
        simp [unsigned, text, Option.filter_some, word, fits, Except.toOption]

end TouchGesture.Yaml
