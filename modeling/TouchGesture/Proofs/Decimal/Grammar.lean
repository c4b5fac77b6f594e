import TouchGesture.Decimal.Literal
import TouchGesture.Proofs.Decimal.Nearest
import TouchGesture.Proofs.Text.Blank

/-! The grammar of decimal literals and of the words beside them, and that their unsigned texts are
exactly those that are read as magnitudes. -/

namespace TouchGesture.Decimal

open Float.Model.UnpackedFloat (Sign)
open Text (Graphic Stops)

inductive Lead where
  | bare
  | plus
  | minus

namespace Lead

def chars : Lead → List Char
  | bare => []
  | plus => ['+']
  | minus => ['-']

def sign : Lead → Sign
  | bare | plus => .positive
  | minus => .negative

def apply {α : Type} [Neg α] (lead : Lead) (a : α) : α :=
  match lead with
  | bare | plus => a
  | minus => -a

def split : List Char → Lead × List Char
  | '-' :: cs => (minus, cs)
  | '+' :: cs => (plus, cs)
  | cs => (bare, cs)

theorem chars_split (cs : List Char) : (split cs).1.chars ++ (split cs).2 = cs := by
  fun_cases split cs <;> rfl

theorem split_append {cs : List Char} (unsigned : Stops (· ∈ ['+', '-']) cs) (lead : Lead) :
    split (lead.chars ++ cs) = (lead, cs) := by
  cases lead with
  | plus | minus => rfl
  | bare =>
      cases cs with
      | nil => rfl
      | cons c cs =>
          have other : c ≠ '+' ∧ c ≠ '-' := by simpa using Text.stops_cons.mp unsigned
          rw [chars, List.nil_append, split]
          · rintro ds ⟨⟩
            exact other.2 rfl
          · rintro ds ⟨⟩
            exact other.1 rfl

end Lead

structure Raise where
  mark : Char
  lead : Lead
  digits : List Char
  isMark : mark = 'e' ∨ mark = 'E'
  decimal : ∀ c ∈ digits, c.isDigit
  filled : digits ≠ []

namespace Raise

def chars (r : Raise) : List Char := r.mark :: (r.lead.chars ++ r.digits)

def amount (r : Raise) : Int := r.lead.apply (Nat.ofDigitChars 10 r.digits 0 : Int)

end Raise

structure Figures where
  whole : List Char
  /-- The digits behind the point, if there is a point. -/
  fraction : Option (List Char)
  raise : Option Raise
  decimal_whole : ∀ c ∈ whole, c.isDigit
  decimal_fraction : ∀ c ∈ fraction.getD [], c.isDigit
  filled : whole ++ fraction.getD [] ≠ []

def pointed : Option (List Char) → List Char
  | none => []
  | some ds => '.' :: ds

def raised : Option Raise → List Char
  | none => []
  | some r => r.chars

namespace Figures

def digits (f : Figures) : List Char := f.whole ++ f.fraction.getD []

def chars (f : Figures) : List Char := f.whole ++ (pointed f.fraction ++ raised f.raise)

def number (f : Figures) : Decimal :=
  ⟨Nat.ofDigitChars 10 f.digits 0, f.raise.elim 0 Raise.amount - (f.fraction.getD []).length⟩

end Figures

structure Literal extends Figures where
  lead : Lead

namespace Literal

def chars (l : Literal) : List Char := l.lead.chars ++ l.toFigures.chars

def rounded (l : Literal) : Float := Double.ofMagnitude l.lead.sign l.number.value

end Literal

inductive Word : List Char → Magnitude → Prop where
  | infinity {w : List Char}
      (spelled : String.ofList (w.map Char.toLower) ∈ ["inf", "infinity"]) :
      Word w .infinity
  | notANumber {w : List Char} (spelled : String.ofList (w.map Char.toLower) = "nan") :
      Word w .notANumber

section Exponent

variable {cs : List Char} {e : Int}

theorem isDigit_unsigned {c : Char} (digit : c.isDigit) : c ∉ ['+', '-'] := by
  intro member
  simp only [List.mem_cons, List.not_mem_nil, or_false] at member
  rcases member with rfl | rfl <;> exact absurd digit (by decide)

theorem unsigned_of_isDigit (digits : ∀ c ∈ cs, c.isDigit) : Stops (· ∈ ['+', '-']) cs := by
  intro c first
  exact decide_eq_false (isDigit_unsigned (digits c (List.mem_of_mem_head? first)))

theorem exponent?_cons (c : Char) (rest : List Char) : exponent? (c :: rest) =
    if c = 'e' ∨ c = 'E' then
      if (Lead.split rest).2 = [] ∨ ¬ (Lead.split rest).2.all Char.isDigit then none
      else some ((Lead.split rest).1.apply (Nat.ofDigitChars 10 (Lead.split rest).2 0 : Int))
    else none := by
  unfold exponent?
  fun_cases Lead.split rest <;> simp [Lead.apply]

theorem exponent?_raised (r : Option Raise) :
    exponent? (raised r) = some (r.elim 0 Raise.amount) := by
  cases r with
  | none => rfl
  | some r =>
      have lead := Lead.split_append (unsigned_of_isDigit r.decimal) r.lead
      have digits : r.digits.all Char.isDigit := List.all_eq_true.mpr r.decimal
      rw [raised, Raise.chars, exponent?_cons, if_pos r.isMark, lead,
        if_neg (by simp [r.filled, digits])]
      rfl

theorem exists_raise (read : exponent? cs = some e) :
    ∃ r : Option Raise, cs = raised r ∧ e = r.elim 0 Raise.amount := by
  cases cs with
  | nil =>
      cases read
      exact ⟨none, rfl, rfl⟩
  | cons c rest =>
      rw [exponent?_cons] at read
      split_ifs at read with mark bad
      push Not at bad
      obtain ⟨filled, digits⟩ := bad
      cases read
      refine ⟨some ⟨c, (Lead.split rest).1, (Lead.split rest).2, mark,
        List.all_eq_true.mp digits, filled⟩,
        ?_, rfl⟩
      rw [raised, Raise.chars, Lead.chars_split]

end Exponent

section Number

variable {cs ds : List Char} {d : Decimal} {m : Magnitude}

theorem mark_of_raised {r : Option Raise} : ∀ c ∈ (raised r).head?, c = 'e' ∨ c = 'E' := by
  cases r with
  | none => nofun
  | some r =>
      rintro c ⟨⟩
      exact r.isMark

theorem stops_raised (r : Option Raise) : Stops Char.isDigit (raised r) := by
  intro c first
  rcases mark_of_raised c first with rfl | rfl <;> rfl

theorem stops_pointed (fraction : Option (List Char)) (r : Option Raise) :
    Stops Char.isDigit (pointed fraction ++ raised r) := by
  cases fraction with
  | none => exact stops_raised r
  | some ds => exact Text.stops_cons.mpr rfl

def fractionOf : List Char → Option (List Char) × List Char
  | '.' :: more => (some (more.takeWhile Char.isDigit), more.dropWhile Char.isDigit)
  | rest => (none, rest)

theorem number?_eq (cs : List Char) : number? cs =
    let whole := cs.takeWhile Char.isDigit
    let (fraction, rest) := fractionOf (cs.dropWhile Char.isDigit)
    if whole ++ fraction.getD [] = [] then none
    else (exponent? rest).map fun e =>
      ⟨Nat.ofDigitChars 10 (whole ++ fraction.getD []) 0, e - (fraction.getD []).length⟩ := by
  unfold number?
  fun_cases fractionOf (cs.dropWhile Char.isDigit) <;> simp

theorem pointed_fractionOf (cs : List Char) :
    pointed (fractionOf cs).1 ++ (fractionOf cs).2 = cs := by
  fun_cases fractionOf cs with
  | case1 more => exact congrArg ('.' :: ·) List.takeWhile_append_dropWhile
  | case2 => rfl

theorem isDigit_fractionOf (cs : List Char) : ∀ c ∈ (fractionOf cs).1.getD [], c.isDigit := by
  fun_cases fractionOf cs with
  | case1 more =>
      intro c member
      exact List.mem_takeWhile_imp member
  | case2 => nofun

theorem fractionOf_pointed {fraction : Option (List Char)}
    (digits : ∀ c ∈ fraction.getD [], c.isDigit)
    (r : Option Raise) : fractionOf (pointed fraction ++ raised r) = (fraction, raised r) := by
  cases fraction with
  | some ds =>
      have run : (ds ++ raised r).takeWhile Char.isDigit = ds :=
        Text.takeWhile_run digits (stops_raised r)
      have left : (ds ++ raised r).dropWhile Char.isDigit = raised r :=
        Text.dropWhile_run digits (stops_raised r)
      rw [pointed, List.cons_append, fractionOf, run, left]
  | none =>
      cases text : raised r with
      | nil => rfl
      | cons c rest =>
          have mark : c = 'e' ∨ c = 'E' := mark_of_raised c (by rw [text]; rfl)
          rcases mark with rfl | rfl <;> rfl

theorem number?_chars (f : Figures) : number? f.chars = some f.number := by
  have run : f.chars.takeWhile Char.isDigit = f.whole :=
    Text.takeWhile_run f.decimal_whole (stops_pointed f.fraction f.raise)
  have left : f.chars.dropWhile Char.isDigit = pointed f.fraction ++ raised f.raise :=
    Text.dropWhile_run f.decimal_whole (stops_pointed f.fraction f.raise)
  simp only [number?_eq, run, left, fractionOf_pointed f.decimal_fraction, if_neg f.filled,
    exponent?_raised]
  rfl

theorem exists_figures (read : number? cs = some d) :
    ∃ f : Figures, cs = f.chars ∧ d = f.number := by
  rw [number?_eq] at read
  simp only at read
  split_ifs at read with empty
  obtain ⟨e, exponent, rfl⟩ := Option.map_eq_some_iff.mp read
  obtain ⟨r, text, rfl⟩ := exists_raise exponent
  refine ⟨⟨cs.takeWhile Char.isDigit, (fractionOf (cs.dropWhile Char.isDigit)).1, r,
    fun c member => List.mem_takeWhile_imp member, isDigit_fractionOf _, empty⟩, ?_, rfl⟩
  rw [Figures.chars, ← text, pointed_fractionOf, List.takeWhile_append_dropWhile]

theorem Figures.first_char (f : Figures) :
    ∃ c rest, f.chars = c :: rest ∧ (c.isDigit ∨ c = '.') := by
  obtain ⟨whole, fraction, r, digits, -, filled⟩ := f
  cases whole with
  | cons c whole => exact ⟨c, _, rfl, .inl (digits c List.mem_cons_self)⟩
  | nil =>
      cases fraction with
      | none => exact absurd rfl filled
      | some ds => exact ⟨'.', _, rfl, .inr rfl⟩

end Number

section Words

variable {w : List Char} {m : Magnitude}

theorem isAlpha_of_word (word : Word w m) : ∀ c ∈ w, c.isAlpha := by
  have letters : ∀ text ∈ ["inf", "infinity", "nan"], ∀ c ∈ text.toList, c.isAlpha := by
    simp
  intro c member
  have lower : c.toLower ∈ (String.ofList (w.map Char.toLower)).toList := by
    rw [String.toList_ofList]
    exact List.mem_map_of_mem member
  rw [← Char.isAlpha_toLower_eq_isAlpha]
  cases word with
  | infinity spelled =>
      rcases List.mem_pair.mp spelled with short | long
      · exact letters _ (by simp [short]) _ lower
      · exact letters _ (by simp [long]) _ lower
  | notANumber spelled => exact letters _ (by simp [spelled]) _ lower

theorem magnitude?_word (word : Word w m) : magnitude? w = some m := by
  cases word with
  | infinity spelled => exact if_pos (List.mem_pair.mp spelled)
  | notANumber spelled => simp [magnitude?, spelled]

theorem not_isFinite_word (word : Word w m) : ¬ m.toFloat.isFinite := by
  cases word with
  | infinity => decide +kernel
  | notANumber => decide +kernel

end Words

section Magnitudes

variable {cs : List Char} {m : Magnitude}

theorem magnitude?_chars (f : Figures) : magnitude? f.chars = some (.number f.number) := by
  have other : ∀ m, ¬ Word f.chars m := by
    intro m word
    obtain ⟨c, rest, text, digit | rfl⟩ := f.first_char
    · have letter := isAlpha_of_word word c (by simp [text])
      exact Text.not_isDigit_of_isAlpha letter digit
    · have letter := isAlpha_of_word word '.' (by simp [text])
      exact absurd letter (by decide)
  have infinity : ¬ (String.ofList (f.chars.map Char.toLower) = "inf" ∨
      String.ofList (f.chars.map Char.toLower) = "infinity") :=
    fun spelled => other _ (.infinity (List.mem_pair.mpr spelled))
  have notANumber : String.ofList (f.chars.map Char.toLower) ≠ "nan" :=
    fun spelled => other _ (.notANumber spelled)
  rw [magnitude?, if_neg infinity, if_neg notANumber, number?_chars]
  rfl

theorem word_or_figures (read : magnitude? cs = some m) :
    Word cs m ∨ ∃ f : Figures, cs = f.chars ∧ m = .number f.number := by
  rw [magnitude?] at read
  split_ifs at read with infinity notANumber
  · cases read
    exact .inl (.infinity (List.mem_pair.mpr infinity))
  · cases read
    exact .inl (.notANumber notANumber)
  · obtain ⟨d, number, rfl⟩ := Option.map_eq_some_iff.mp read
    obtain ⟨f, text, rfl⟩ := exists_figures number
    exact .inr ⟨f, text, rfl⟩

end Magnitudes

section Characters

variable {c : Char}

def Numeric (c : Char) : Prop := c.isDigit ∨ c.isAlpha ∨ c ∈ ['.', '+', '-']

instance (c : Char) : Decidable (Numeric c) :=
  inferInstanceAs (Decidable (c.isDigit ∨ c.isAlpha ∨ c ∈ ['.', '+', '-']))

theorem graphic_of_numeric (numeric : Numeric c) : Graphic c := by
  rcases numeric with digit | letter | other
  · exact Text.graphic_of_isDigit digit
  · exact Text.graphic_of_isAlpha letter
  · simp only [List.mem_cons, List.not_mem_nil, or_false] at other
    rcases other with rfl | rfl | rfl <;> exact ⟨by decide, by decide⟩

theorem numeric_digits {ds : List Char} (digits : ∀ c ∈ ds, c.isDigit) :
    ∀ c ∈ ds, Numeric c :=
  fun c member => .inl (digits c member)

theorem numeric_letters {w : List Char} (letters : ∀ c ∈ w, c.isAlpha) :
    ∀ c ∈ w, Numeric c :=
  fun c member => .inr (.inl (letters c member))

theorem numeric_lead (lead : Lead) : ∀ c ∈ lead.chars, Numeric c := by
  intro c member
  cases lead with
  | bare => cases member
  | plus | minus =>
      cases List.mem_singleton.mp member
      exact .inr (.inr (by decide))

theorem numeric_raised (r : Option Raise) : ∀ c ∈ raised r, Numeric c := by
  cases r with
  | none => nofun
  | some r =>
      have mark : Numeric r.mark := by
        rcases r.isMark with mark | mark <;> rw [mark] <;> exact .inr (.inl (by decide))
      exact List.forall_mem_cons.mpr
        ⟨mark, List.forall_mem_append.mpr ⟨numeric_lead r.lead, numeric_digits r.decimal⟩⟩

theorem numeric_pointed {fraction : Option (List Char)}
    (digits : ∀ c ∈ fraction.getD [], c.isDigit) :
    ∀ c ∈ pointed fraction, Numeric c := by
  cases fraction with
  | none => nofun
  | some ds =>
      have point : Numeric '.' := .inr (.inr (by decide))
      exact List.forall_mem_cons.mpr ⟨point, numeric_digits digits⟩

theorem numeric_figures (f : Figures) : ∀ c ∈ f.chars, Numeric c := by
  have rest :=
    List.forall_mem_append.mpr ⟨numeric_pointed f.decimal_fraction, numeric_raised f.raise⟩
  exact List.forall_mem_append.mpr ⟨numeric_digits f.decimal_whole, rest⟩

theorem numeric_literal (l : Literal) : ∀ c ∈ l.chars, Numeric c :=
  List.forall_mem_append.mpr ⟨numeric_lead l.lead, numeric_figures l.toFigures⟩

end Characters

end TouchGesture.Decimal
