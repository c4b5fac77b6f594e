import Mathlib.Tactic.Ring
import TouchGesture.Proofs.Text.Digits
import TouchGesture.Yaml.Scalar

/-! The keys of a mapping as they are written, plain where that is safe and in double quotes else,
and how a scanner reads them. -/

namespace TouchGesture.Yaml

open Text (hexDigit? hexText)

def isWord (c : Char) : Bool := c.isAlphanum || c = '_'

def isOrdinary (c : Char) : Bool :=
  isAllowed c && !isBlank c && !isBreak c &&
    c ∉ ['-', '?', ':', ',', '[', ']', '{', '}', '#', '&', '*', '!', '|', '>', '\'', '"', '%',
      '@', '\x60',
      '.', '\\', '\r', '\x85', '\ufeff']

theorem isOrdinary_of_isWord {c : Char} (word : isWord c) : isOrdinary c := by
  have ascii : ∀ n < 128, isWord (Char.ofNat n) → isOrdinary (Char.ofNat n) := by
    decide
  have bound : c.toNat < 128 := by
    have below (last : Char) (most : c.val ≤ last.val) (ascii : last.toNat < 128) :
        c.toNat < 128 :=
      Nat.lt_of_le_of_lt (UInt32.le_iff_toNat_le.mp most) ascii
    have run {first last : Char}
        (inside : (decide (c.val ≥ first.val) && decide (c.val ≤ last.val)) = true) :
        c.val ≤ last.val :=
      of_decide_eq_true (Bool.and_eq_true_iff.mp inside).2
    have ranges : (((c.isUpper || c.isLower) || c.isDigit) || decide (c = '_')) = true := word
    simp only [Bool.or_eq_true, decide_eq_true_eq] at ranges
    obtain ((upper | lower) | digit) | rfl := ranges
    · have inside : c.val ≥ 'A'.val ∧ c.val ≤ 'Z'.val := of_decide_eq_true upper
      exact below 'Z' inside.2 (by decide)
    · exact below 'z' (run lower) (by decide)
    · exact below '9' (run digit) (by decide)
    · decide
  have written : Char.ofNat c.toNat = c := Char.ofNat_toNat c
  rw [← written] at word ⊢
  exact ascii c.toNat bound word

section Ordinary

variable {c : Char} (ordinary : isOrdinary c)

include ordinary

theorem ne_of_isOrdinary {d : Char} (special : isOrdinary d = false) : c ≠ d := by
  rintro rfl
  rw [ordinary] at special
  cases special

theorem not_isBlank_of_isOrdinary : isBlank c = false := by
  simp only [isBlank, ne_of_isOrdinary ordinary (d := ' ') rfl,
    ne_of_isOrdinary ordinary (d := '\t') rfl, decide_false, Bool.or_false]

theorem not_isBreak_of_isOrdinary : isBreak c = false := by
  simp only [isOrdinary, Bool.and_eq_true, Bool.not_eq_true'] at ordinary
  exact ordinary.1.2

end Ordinary

def quotedChar (c : Char) : List Char :=
  if isWord c then [c] else '\\' :: 'U' :: hexText 8 c.toNat

def keyStyle (key : List Char) : Style := if key ≠ [] ∧ key.all isWord then .plain else .quoted

def keyText (key : List Char) : List Char :=
  match keyStyle key with
  | .plain => key
  | _ => '"' :: (key.flatMap quotedChar ++ ['"'])

namespace Mark

@[simp] theorem advance_zero (m : Mark) : m.advance 0 = m := rfl

@[simp] theorem advance_advance (m : Mark) (i j : Nat) :
    (m.advance i).advance j = m.advance (i + j) := by
  simp only [advance, Nat.add_assoc]

end Mark

section Plain

variable {cs rest text : List Char} {indent : Nat} {m : Mark}

def isSolid (c : Char) : Bool := !isBlank c && !isBreak c && c ≠ ':'

theorem push_text (c : Char) : ({ text } : Draft).push c = { text := text ++ [c] } := by
  simp [Draft.push, Draft.joined]

theorem plainScalar_solid (solid : ∀ c ∈ cs, isSolid c) :
    plainScalar false indent { text } false m (cs ++ rest) =
      plainScalar false indent { text := text ++ cs } false (m.advance cs.length) rest := by
  induction cs generalizing text m with
  | nil => simp
  | cons c cs ih =>
      have here := solid c List.mem_cons_self
      simp only [isSolid, Bool.and_eq_true, Bool.not_eq_true', decide_eq_true_eq] at here
      obtain ⟨⟨blank, lineBreak⟩, colon⟩ := here
      have others : ∀ d ∈ cs, isSolid d := fun d member => solid d (.tail c member)
      simp only [List.cons_append, plainScalar, blank, lineBreak, colon, push_text, ih others]
      simp [Mark.next, Nat.add_comm]

theorem plainScalar_colon {d : Draft} :
    plainScalar false indent d false m (':' :: ' ' :: rest) =
      some (d, ⟨m, ':' :: ' ' :: rest⟩) := by
  simp [plainScalar, isBlank, isBreak, wordEnds]

/-- A plain scalar ends at a line break where the next line is not indented. -/
theorem plainScalar_break
    (outside : ∀ c ∈ rest.head?, isBlank c = false ∧ isBreak c = false) :
    plainScalar false 1 { text } false m ('\n' :: rest) =
      some ({ text, break? := some ['\n'] }, ⟨m.nextLine, rest⟩) := by
  cases rest with
  | nil => simp [plainScalar, isBlank, isBreak, Draft.addBreak]
  | cons c rest =>
      obtain ⟨blank, lineBreak⟩ := outside c rfl
      have ended : plainScalar false 1 { text, break? := some ['\n'] } true m.nextLine (c :: rest) =
          some ({ text, break? := some ['\n'] }, ⟨m.nextLine, c :: rest⟩) := by
        simp [plainScalar, blank, lineBreak, Mark.nextLine]
      have added : ({ text } : Draft).addBreak '\n' = { text, break? := some ['\n'] } := rfl
      rw [plainScalar, if_neg (by decide), if_pos (by decide), added, ended]

end Plain

section Quoted

variable {rest text : List Char} {m : Mark}

theorem doubleQuoted_digit {d : Draft} {digits code h : Nat} {c : Char}
    (digit : hexDigit? c = some h) :
    doubleQuoted d (digits + 1) code m (c :: rest) =
      if 0 < digits then doubleQuoted d digits (code * 16 + h) m.next rest
      else if (code * 16 + h).isValidChar then
        doubleQuoted (d.push (Char.ofNat (code * 16 + h))) 0 0 m.next rest
      else none := by
  have backslash : c ≠ '\\' := by
    rintro rfl
    cases digit
  simp [doubleQuoted, backslash, digit]

theorem doubleQuoted_hexText {k n code : Nat} {d : Draft}
    (valid : (code * 16 ^ (k + 1) + n % 16 ^ (k + 1)).isValidChar) :
    doubleQuoted d (k + 1) code m (hexText (k + 1) n ++ rest) =
      doubleQuoted (d.push (Char.ofNat (code * 16 ^ (k + 1) + n % 16 ^ (k + 1)))) 0 0
        (m.advance (k + 1))
        rest := by
  have digit (k : Nat) : hexDigit? (Nat.digitChar (n / 16 ^ k % 16)) = some (n / 16 ^ k % 16) :=
    Text.hexDigit?_digitChar _ (Nat.mod_lt _ (by decide))
  induction k generalizing code m with
  | zero =>
      simp only [Nat.zero_add, pow_one] at valid ⊢
      rw [hexText, List.cons_append, doubleQuoted_digit (digit 0), pow_zero, Nat.div_one,
        if_neg (Nat.lt_irrefl 0), if_pos valid]
      rfl
  | succ k ih =>
      have sum : (code * 16 + n / 16 ^ (k + 1) % 16) * 16 ^ (k + 1) + n % 16 ^ (k + 1) =
          code * 16 ^ (k + 2) + n % 16 ^ (k + 2) := by
        rw [pow_succ 16 (k + 1), Nat.mod_mul]
        ring
      rw [← sum] at valid ⊢
      rw [hexText, List.cons_append, doubleQuoted_digit (digit (k + 1)), if_pos (by omega),
        ih valid]
      simp [Mark.next, Nat.add_comm]

theorem doubleQuoted_char (start : m.column ≠ 0) (c : Char) :
    doubleQuoted { text } 0 0 m (quotedChar c ++ rest) =
      doubleQuoted { text := text ++ [c] } 0 0 (m.advance (quotedChar c).length) rest := by
  by_cases word : isWord c
  · have ordinary := isOrdinary_of_isWord word
    have backslash : c ≠ '\\' := ne_of_isOrdinary ordinary rfl
    have quote : c ≠ '"' := ne_of_isOrdinary ordinary rfl
    simp [quotedChar, word, doubleQuoted, backslash, quote, not_isBlank_of_isOrdinary ordinary,
      not_isBreak_of_isOrdinary ordinary, start, push_text, Mark.next]
  · have code : 0 * 16 ^ 8 + c.toNat % 16 ^ 8 = c.toNat := by
      have bound : c.toNat < 0x110000 := by
        rcases c.valid with low | ⟨-, high⟩
        · exact Nat.lt_trans low (by decide)
        · exact high
      omega
    have valid : (0 * 16 ^ 8 + c.toNat % 16 ^ 8).isValidChar := by
      rw [code]
      exact c.valid
    have escape : doubleQuoted { text } 8 0 (m.advance 2) (hexText 8 c.toNat ++ rest) =
        doubleQuoted (({ text } : Draft).push (Char.ofNat (0 * 16 ^ 8 + c.toNat % 16 ^ 8))) 0 0
          ((m.advance 2).advance 8) rest :=
      doubleQuoted_hexText valid
    rw [code, Char.ofNat_toNat, push_text] at escape
    simp [quotedChar, word, doubleQuoted, isBreak, escape?, escapeDigits?, escape,
      Text.length_hexText]

/-- A key in double quotes is read up to its closing quote. -/
theorem doubleQuoted_key {key : List Char} (start : m.column ≠ 0) :
    doubleQuoted { text } 0 0 m (key.flatMap quotedChar ++ '"' :: rest) =
      some ({ text := text ++ key },
        ⟨m.advance ((key.flatMap quotedChar).length + 1), rest⟩) := by
  induction key generalizing text m with
  | nil => simp [doubleQuoted, isBlank, isBreak, start, Mark.next, Draft.joined]
  | cons c key ih =>
      have onwards : (m.advance (quotedChar c).length).column ≠ 0 := by
        simp only [Mark.advance]
        omega
      rw [List.flatMap_cons, List.append_assoc, doubleQuoted_char start, ih onwards]
      simp only [Mark.advance_advance, List.append_assoc, List.cons_append, List.nil_append,
        List.length_append, Nat.add_assoc]

end Quoted

theorem isWord_of_mem_hexText {k n : Nat} {c : Char} (member : c ∈ hexText k n) : isWord c := by
  have digit : ∀ d < 16, isWord (Nat.digitChar d) := by
    decide
  induction k with
  | zero => cases member
  | succ k ih =>
      rcases List.mem_cons.mp member with rfl | later
      · exact digit _ (Nat.mod_lt _ (by decide))
      · exact ih later

theorem mem_keyText {key : List Char} {c : Char} (member : c ∈ keyText key) :
    isWord c ∨ c = '"' ∨ c = '\\' := by
  by_cases plain : key ≠ [] ∧ key.all isWord
  · have style : keyStyle key = .plain := if_pos plain
    simp only [keyText, style] at member
    exact .inl (List.all_eq_true.mp plain.2 c member)
  · have style : keyStyle key = .quoted := if_neg plain
    simp only [keyText, style, List.mem_cons, List.mem_append, List.mem_flatMap, List.not_mem_nil,
      or_false] at member
    rcases member with quote | ⟨d, -, inside⟩ | quote
    · exact .inr (.inl quote)
    · by_cases word : isWord d
      · simp only [quotedChar, word, if_true, List.mem_singleton] at inside
        exact .inl (inside ▸ word)
      · simp only [quotedChar, word, if_false, Bool.false_eq_true, List.mem_cons] at inside
        rcases inside with backslash | rfl | digit
        · exact .inr (.inr backslash)
        · exact .inl rfl
        · exact .inl (isWord_of_mem_hexText digit)
    · exact .inr (.inl quote)

end TouchGesture.Yaml
