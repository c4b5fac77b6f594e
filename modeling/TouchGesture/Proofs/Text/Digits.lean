import Mathlib.Algebra.Group.Nat.Defs
import TouchGesture.Text.Hex

/-! Runs of digits: where they end, and what they say. -/

namespace TouchGesture.Text

def Stops (p : Char → Bool) (rest : List Char) : Prop := ∀ c ∈ rest.head?, p c = false

section Runs

variable {p : Char → Bool} {cs rest : List Char}

theorem stops_nil : Stops p [] := nofun

theorem stops_cons {c : Char} : Stops p (c :: rest) ↔ p c = false := by
  simp [Stops]

theorem takeWhile_stops (stops : Stops p rest) : rest.takeWhile p = [] := by
  cases rest with
  | nil => rfl
  | cons c rest => simp [stops_cons.mp stops]

theorem dropWhile_stops (stops : Stops p rest) : rest.dropWhile p = rest := by
  cases rest with
  | nil => rfl
  | cons c rest => simp [stops_cons.mp stops]

theorem takeWhile_run (run : ∀ c ∈ cs, p c) (stops : Stops p rest) :
    (cs ++ rest).takeWhile p = cs := by
  rw [List.takeWhile_append_of_pos run, takeWhile_stops stops, List.append_nil]

theorem dropWhile_run (run : ∀ c ∈ cs, p c) (stops : Stops p rest) :
    (cs ++ rest).dropWhile p = rest := by
  rw [List.dropWhile_append_of_pos run, dropWhile_stops stops]

/-- A run and what is behind it can be told from the text of both. -/
theorem run_inj {ds more : List Char} (run : ∀ c ∈ cs, p c) (stops : Stops p rest)
    (run' : ∀ c ∈ ds, p c)
    (stops' : Stops p more) (same : cs ++ rest = ds ++ more) : cs = ds ∧ rest = more := by
  have front := congrArg (List.takeWhile p) same
  have back := congrArg (List.dropWhile p) same
  rw [takeWhile_run run stops, takeWhile_run run' stops'] at front
  rw [dropWhile_run run stops, dropWhile_run run' stops'] at back
  exact ⟨front, back⟩

end Runs

theorem isDigit_toDigits (n : Nat) : ∀ c ∈ Nat.toDigits 10 n, c.isDigit := by
  intro c member
  exact Nat.isDigit_of_mem_toDigits (by decide) (by decide) member

theorem toDigits_inj {m n : Nat} (same : Nat.toDigits 10 m = Nat.toDigits 10 n) : m = n := by
  have numbers := congrArg (Nat.ofDigitChars 10 · 0) same
  simpa only [Nat.ofDigitChars_ten_toDigits] using numbers

theorem digits_inj {m n : Nat} {rest more : List Char} (stops : Stops Char.isDigit rest)
    (stops' : Stops Char.isDigit more)
    (same : Nat.toDigits 10 m ++ rest = Nat.toDigits 10 n ++ more) :
    m = n ∧ rest = more := by
  obtain ⟨digits, behind⟩ := run_inj (isDigit_toDigits m) stops (isDigit_toDigits n) stops' same
  exact ⟨toDigits_inj digits, behind⟩

theorem eq_zero_of_head_toDigits {n : Nat} (padded : (Nat.toDigits 10 n).head? = some '0') :
    n = 0 := by
  induction n using Nat.strongRecOn with
  | ind n ih =>
      rw [Nat.toDigits_eq_if (by decide)] at padded
      by_cases small : n < 10
      · simp only [small, if_true, List.head?_cons, Option.some.injEq] at padded
        exact Nat.digitChar_eq_zero.mp padded
      · have less : n / 10 < n := by omega
        rw [if_neg small, List.head?_append, Option.or_of_isSome] at padded
        · have leading : n / 10 = 0 := ih (n / 10) less padded
          omega
        · exact List.isSome_head?.mpr Nat.toDigits_ne_nil

def hexText : Nat → Nat → List Char
  | 0, _ => []
  | k + 1, n => Nat.digitChar (n / 16 ^ k % 16) :: hexText k n

theorem hexDigit?_digitChar : ∀ d < 16, hexDigit? (Nat.digitChar d) = some d := by
  decide

theorem length_hexText (k n : Nat) : (hexText k n).length = k := by
  induction k with
  | zero => rfl
  | succ k ih => rw [hexText, List.length_cons, ih]

end TouchGesture.Text
