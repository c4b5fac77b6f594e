import TouchGesture.Json.Decode
import TouchGesture.Proofs.Text.Digits

/-! Numbers in JSON are read as they are written, and an integer is taken for what it is as long as
it has at most 64 bits. -/

namespace TouchGesture.Json

open Text (Stops)

def continues (c : Char) : Bool := c.isDigit || c = '.' || c = 'e' || c = 'E'

namespace Numeral

/-- The parts of a number that can be written: digits, at least one before the point and no zero in
front of others, and no sign of an exponent that is not there. -/
structure Plain (n : Numeral) : Prop where
  whole : ∀ c ∈ n.whole, c.isDigit
  some_whole : n.whole ≠ []
  unpadded : n.whole.head? = some '0' → n.whole.length ≤ 1
  fraction : ∀ c ∈ n.fraction, c.isDigit
  exponent : ∀ c ∈ n.exponent, c.isDigit
  unsigned : n.exponent = [] → n.exponentNegative = false

theorem Plain.first_char {n : Numeral} (plain : n.Plain) :
    ∃ c tail, n.chars = c :: tail ∧ (c = '-' ∨ c.isDigit) := by
  obtain ⟨negative, whole, fraction, exponentNegative, exponent⟩ := n
  cases whole with
  | nil => exact absurd rfl plain.some_whole
  | cons d ds =>
      cases negative with
      | true => exact ⟨'-', _, rfl, .inl rfl⟩
      | false => exact ⟨d, _, rfl, .inr (plain.whole d List.mem_cons_self)⟩

section Reading

variable {ds rest : List Char}

theorem stops_isDigit (stops : Stops continues rest) : Stops Char.isDigit rest := by
  intro c first
  have outside := stops c first
  simp only [continues, Bool.or_eq_false_iff] at outside
  exact outside.1.1.1

def pointed (ds : List Char) : List Char := if ds.isEmpty then [] else '.' :: ds

def raised (negative : Bool) (ds : List Char) : List Char :=
  if ds.isEmpty then [] else 'e' :: (if negative then '-' else '+') :: ds

theorem stops_raised {negative : Bool} (stops : Stops continues rest) :
    Stops Char.isDigit (raised negative ds ++ rest) := by
  cases ds with
  | nil => exact stops_isDigit stops
  | cons d ds => exact Text.stops_cons.mpr rfl

theorem head_raised_ne_point {negative : Bool} (stops : Stops continues rest) :
    (raised negative ds ++ rest).head? ≠ some '.' := by
  cases ds with
  | nil =>
      intro point
      have outside := stops '.' point
      simp [continues] at outside
  | cons d ds => simp [raised]

theorem stops_pointed (stops : Stops Char.isDigit rest) :
    Stops Char.isDigit (pointed ds ++ rest) := by
  cases ds with
  | nil => exact stops
  | cons d ds => exact Text.stops_cons.mpr rfl

theorem fraction?_pointed (digits : ∀ c ∈ ds, c.isDigit) (stops : Stops Char.isDigit rest)
    (point : rest.head? ≠ some '.') : fraction? (pointed ds ++ rest) = some (ds, rest) := by
  cases ds with
  | nil =>
      cases rest with
      | nil => rfl
      | cons c rest =>
          have other : c ≠ '.' := by
            rintro rfl
            exact point rfl
          simp [pointed, fraction?, other]
  | cons d ds =>
      have run : ((d :: ds) ++ rest).takeWhile Char.isDigit = d :: ds :=
        Text.takeWhile_run digits stops
      have left : ((d :: ds) ++ rest).dropWhile Char.isDigit = rest :=
        Text.dropWhile_run digits stops
      rw [List.cons_append] at run left
      simp [pointed, fraction?, run, left]

theorem exponent?_raised {negative : Bool} (digits : ∀ c ∈ ds, c.isDigit)
    (unsigned : ds = [] → negative = false) (stops : Stops continues rest) :
    exponent? (raised negative ds ++ rest) = some (negative, ds, rest) := by
  cases ds with
  | nil =>
      rw [unsigned rfl]
      cases rest with
      | nil => rfl
      | cons c rest =>
          have outside := Text.stops_cons.mp stops
          simp only [continues, Bool.or_eq_false_iff, decide_eq_false_iff_not] at outside
          simp [raised, exponent?, outside]
  | cons d ds =>
      have run : ((d :: ds) ++ rest).takeWhile Char.isDigit = d :: ds :=
        Text.takeWhile_run digits (stops_isDigit stops)
      have left : ((d :: ds) ++ rest).dropWhile Char.isDigit = rest :=
        Text.dropWhile_run digits (stops_isDigit stops)
      rw [List.cons_append] at run left
      cases negative <;> simp [raised, exponent?, run, left]

/-- A number is read up to where it ends. -/
theorem lex?_chars {n : Numeral} (plain : n.Plain) (stops : Stops continues rest) :
    lex? (n.chars ++ rest) = some (n, rest) := by
  obtain ⟨negative, whole, fraction, exponentNegative, exponent⟩ := n
  obtain ⟨whole_digits, some_whole, unpadded, fraction_digits, exponent_digits, unsigned⟩ :=
    plain
  cases whole with
  | nil => exact absurd rfl some_whole
  | cons d ds =>
      let tail := pointed fraction ++ (raised exponentNegative exponent ++ rest)
      have run : ((d :: ds) ++ tail).takeWhile Char.isDigit = d :: ds :=
        Text.takeWhile_run whole_digits (stops_pointed (stops_raised stops))
      have left : ((d :: ds) ++ tail).dropWhile Char.isDigit = tail :=
        Text.dropWhile_run whole_digits (stops_pointed (stops_raised stops))
      have reads_fraction : fraction? tail =
          some (fraction, raised exponentNegative exponent ++ rest) :=
        fraction?_pointed fraction_digits (stops_raised stops) (head_raised_ne_point stops)
      have reads_exponent : exponent? (raised exponentNegative exponent ++ rest) =
          some (exponentNegative, exponent, rest) :=
        exponent?_raised exponent_digits unsigned stops
      have unsigned_first : d ≠ '-' := by
        rintro rfl
        exact absurd (whole_digits '-' List.mem_cons_self) (by decide)
      have written : (⟨negative, d :: ds, fraction, exponentNegative, exponent⟩ :
          Numeral).chars ++ rest =
          (if negative then ['-'] else []) ++ ((d :: ds) ++ tail) := by
        simp [chars, tail, pointed, raised]
      have short : d = '0' → ds = [] := by
        rintro rfl
        have bound := unpadded rfl
        simp only [List.length_cons] at bound
        exact List.length_eq_zero_iff.mp (by omega)
      rw [written]
      rw [List.cons_append] at run left
      cases negative <;>
        simp [lex?, run, left, reads_fraction, reads_exponent, unsigned_first] <;>
        exact short

end Reading

def ofInt (i : Int) : Numeral where
  negative := i < 0
  whole := Nat.toDigits 10 i.natAbs

theorem ofInt_natCast (n : Nat) : ofInt n = ofNat n := by
  simp [ofInt, ofNat]

theorem plain_ofInt (i : Int) : (ofInt i).Plain where
  whole := Text.isDigit_toDigits i.natAbs
  some_whole := Nat.toDigits_ne_nil
  unpadded padded := by
    have zero : i.natAbs = 0 := Text.eq_zero_of_head_toDigits padded
    simp [ofInt, zero]
  fraction := nofun
  exponent := nofun
  unsigned _ := rfl

section Amounts

variable {ds : List Char} {n : Nat}

theorem mul_pow_le_ofDigitChars : n * 10 ^ ds.length ≤ Nat.ofDigitChars 10 ds n := by
  induction ds generalizing n with
  | nil => simp
  | cons d ds ih =>
      rw [Nat.ofDigitChars_cons, List.length_cons, Nat.pow_succ, ← Nat.mul_assoc,
        Nat.mul_right_comm]
      refine Nat.le_trans (Nat.mul_le_mul_right _ ?_) ih
      omega

theorem ofDigitChars_lt (digits : ∀ d ∈ ds, d.isDigit) :
    Nat.ofDigitChars 10 ds n < (n + 1) * 10 ^ ds.length := by
  induction ds generalizing n with
  | nil => simp
  | cons d ds ih =>
      rw [List.forall_mem_cons] at digits
      have digit : d.toNat - '0'.toNat ≤ 9 := by
        have range := digits.1
        simp only [Char.isDigit, Bool.and_eq_true, decide_eq_true_eq] at range
        exact Nat.sub_le_sub_right range.2 _
      rw [Nat.ofDigitChars_cons, List.length_cons, Nat.pow_succ, ← Nat.mul_assoc,
        Nat.mul_right_comm]
      refine Nat.lt_of_lt_of_le (ih digits.2) (Nat.mul_le_mul_right _ ?_)
      omega

theorem le_ofDigitChars : n ≤ Nat.ofDigitChars 10 ds n :=
  Nat.le_trans (Nat.le_mul_of_pos_right n (Nat.pow_pos (by decide))) mul_pow_le_ofDigitChars

/-- Digits that 64 bits hold are gathered, and others are not all gathered. -/
theorem gather_eq (fits : n < UInt64.size) :
    (Nat.ofDigitChars 10 ds n < UInt64.size → gather n ds = (Nat.ofDigitChars 10 ds n, [])) ∧
      (UInt64.size ≤ Nat.ofDigitChars 10 ds n → (gather n ds).2 ≠ []) := by
  induction ds generalizing n with
  | nil =>
      constructor
      · intro _
        simp [gather]
      · intro wide
        simp only [Nat.ofDigitChars_nil] at wide
        omega
  | cons d ds ih =>
      have commuted : n * 10 + (d.toNat - '0'.toNat) = 10 * n + (d.toNat - '0'.toNat) := by omega
      simp only [gather, Nat.ofDigitChars_cons, commuted]
      by_cases next : 10 * n + (d.toNat - '0'.toNat) < UInt64.size
      · simp only [next, if_true]
        exact ih next
      · simp only [next, if_false]
        constructor
        · intro narrow
          exact absurd (Nat.lt_of_le_of_lt le_ofDigitChars narrow) next
        · intro _
          exact List.cons_ne_nil d ds

theorem gather_le (fits : n < UInt64.size) :
    (gather n ds).1 < UInt64.size ∧
      (gather n ds).1 * 10 ^ (gather n ds).2.length ≤ Nat.ofDigitChars 10 ds n := by
  induction ds generalizing n with
  | nil => simpa [gather] using fits
  | cons d ds ih =>
      rw [gather]
      split
      · rename_i next
        rw [Nat.ofDigitChars_cons, Nat.mul_comm 10 n]
        exact ih next
      · exact ⟨fits, mul_pow_le_ofDigitChars⟩

end Amounts

theorem gather_ofInt (i : Int) :
    (i.natAbs < UInt64.size → gather 0 (ofInt i).whole = (i.natAbs, [])) ∧
      (UInt64.size ≤ i.natAbs → (gather 0 (ofInt i).whole).2 ≠ []) := by
  have value : Nat.ofDigitChars 10 (ofInt i).whole 0 = i.natAbs := Nat.ofDigitChars_ten_toDigits
  rw [← value]
  exact gather_eq (by decide)

theorem amount?_gathered {i : Int} {k : Nat} (gathered : gather 0 (ofInt i).whole = (k, [])) :
    (ofInt i).amount? =
      if 0 ≤ i then some (.integer k)
      else if 0 < k ∧ k ≤ UInt64.size / 2 then some (.integer (-k))
      else some (.double (-(UInt64.ofNat k).toFloat)) := by
  have sign : (!(ofInt i).negative) = decide (0 ≤ i) := by
    simp [ofInt, ← decide_not]
  simp only [amount?, gathered, sign, decide_eq_true_eq]
  rfl

theorem amount?_ofInt {i : Int} (natural : 0 ≤ i) (fits : i < UInt64.size) :
    (ofInt i).amount? = some (.integer i) := by
  have gathered : gather 0 (ofInt i).whole = (i.natAbs, []) := (gather_ofInt i).1 (by omega)
  have magnitude : (i.natAbs : Int) = i := by omega
  rw [amount?_gathered gathered, if_pos natural, magnitude]

/-- No integer is read as another one. -/
theorem eq_of_amount?_ofInt {i a : Int} (read : (ofInt i).amount? = some (.integer a)) : a = i := by
  by_cases fits : i.natAbs < UInt64.size
  · rw [amount?_gathered ((gather_ofInt i).1 fits)] at read
    split at read
    · cases read
      omega
    · split at read
      · cases read
        omega
      · cases read
  · -- digits are left over, and the number is a double
    have surplus : (gather 0 (ofInt i).whole).2 ≠ [] := (gather_ofInt i).2 (Nat.le_of_not_lt fits)
    simp [amount?, surplus] at read

end Numeral

theorem unsigned_ofInt {size : Nat} {kind : String} (narrow : size ≤ UInt64.size) (i : Int) :
    (unsigned size kind (.number (.ofInt i))).toOption =
      if 0 ≤ i ∧ i < size then some i.toNat else none := by
  have accepted (a : Int) (read : (Numeral.ofInt i).amount? = some (.integer a)) :
      (unsigned size kind (.number (.ofInt i))).toOption =
        if 0 ≤ a ∧ a < size then some a.toNat else none := by
    simp only [unsigned, amount, read, bind, Except.bind]
    split <;> rfl
  by_cases inside : 0 ≤ i ∧ i < size
  · exact accepted i (Numeral.amount?_ofInt inside.1 (by omega))
  · rw [if_neg inside]
    cases read : (Numeral.ofInt i).amount? with
    | none =>
        simp only [unsigned, amount, read]
        rfl
    | some a =>
        cases a with
        | double x =>
            simp only [unsigned, amount, read]
            rfl
        | integer a =>
            have same : a = i := Numeral.eq_of_amount?_ofInt read
            rw [accepted a read, same, if_neg inside]

end TouchGesture.Json
