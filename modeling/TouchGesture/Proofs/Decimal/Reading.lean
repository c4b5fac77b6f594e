import TouchGesture.Proofs.Decimal.Grammar
import TouchGesture.Proofs.Double.Closest

/-! A text is read exactly if it is a literal or a word, with a sign or without, and a literal is
read as the double that its number is rounded to. -/

namespace TouchGesture.Decimal

open Text (Padded Stops)

inductive Denotes : List Char → Float → Prop where
  | literal (l : Literal) : Denotes l.chars l.rounded
  | word (lead : Lead) {w : List Char} {m : Magnitude} (word : Word w m) :
      Denotes (lead.chars ++ w) (lead.apply m.toFloat)

variable {cs : List Char} {m : Magnitude} {x : Float} {fault : LiteralFault}

def Literal.value (l : Literal) : ℚ := Double.factor l.lead.sign * l.number.value

/-- No double is closer to a literal than the one it is rounded to. -/
theorem Literal.closest (l : Literal) (finite : l.rounded.isFinite) (x : Float) :
    |l.value - Double.exact l.rounded| ≤ |l.value - Double.exact x| :=
  (Double.nearest_ofMagnitude l.lead.sign l.number.value_nonneg).closest finite x

theorem Literal.isFinite_rounded_iff (l : Literal) : l.rounded.isFinite ↔
    l.number.value < Double.limit :=
  Double.isFinite_ofMagnitude_iff l.lead.sign l.number.value_nonneg

theorem Literal.rounded_eq (l : Literal) : l.rounded = l.lead.apply l.number.toFloat := by
  obtain ⟨f, lead⟩ := l
  rw [rounded, toFloat_eq_ofMagnitude]
  cases lead with
  | bare | plus => rfl
  | minus => exact (Double.neg_ofMagnitude .positive f.number.value_nonneg).symm

theorem literal_eq (filled : cs ≠ []) : literal cs =
    (magnitude? (Lead.split cs).2).elim (.error .malformed) fun m =>
      .ok ((Lead.split cs).1.apply m.toFloat) := by
  unfold literal
  fun_cases Lead.split cs with
  | case1 ds | case2 ds => cases read : magnitude? ds <;> simp [read, Lead.apply]
  | case3 => cases read : magnitude? cs <;> simp [read, Lead.apply]

theorem unsigned_of_read (read : magnitude? cs = some m) : Stops (· ∈ ['+', '-']) cs := by
  intro c first
  have opening : c.isAlpha ∨ c.isDigit ∨ c = '.' := by
    rcases word_or_figures read with word | ⟨f, rfl, -⟩
    · exact .inl (isAlpha_of_word word c (List.mem_of_mem_head? first))
    · obtain ⟨d, rest, text, opening⟩ := f.first_char
      rw [text] at first
      cases first
      exact .inr opening
  have unsigned : c ≠ '+' ∧ c ≠ '-' := by
    constructor <;> rintro rfl <;> exact absurd opening (by decide)
  simpa using unsigned

theorem literal_lead (read : magnitude? cs = some m) (lead : Lead) :
    literal (lead.chars ++ cs) = .ok (lead.apply m.toFloat) := by
  have filled : lead.chars ++ cs ≠ [] := by
    intro empty
    rw [(List.append_eq_nil_iff.mp empty).2] at read
    exact absurd read nofun
  rw [literal_eq filled, Lead.split_append (unsigned_of_read read), read, Option.elim_some]

theorem denotes_of_read (read : magnitude? cs = some m) (lead : Lead) :
    Denotes (lead.chars ++ cs) (lead.apply m.toFloat) := by
  rcases word_or_figures read with word | ⟨f, rfl, rfl⟩
  · exact .word lead word
  · have denotes := Denotes.literal ⟨f, lead⟩
    rwa [Literal.rounded_eq] at denotes

/-- A text is read exactly if it denotes a double, and as that. -/
theorem literal_eq_ok_iff : literal cs = .ok x ↔ Denotes cs x := by
  constructor
  · intro read
    have filled : cs ≠ [] := by
      rintro rfl
      cases read
    rw [literal_eq filled] at read
    cases found : magnitude? (Lead.split cs).2 with
    | none =>
        rw [found] at read
        cases read
    | some m =>
        rw [found] at read
        cases read
        have denotes := denotes_of_read found (Lead.split cs).1
        rwa [Lead.chars_split] at denotes
  · intro denotes
    cases denotes with
    | word lead word => exact literal_lead (magnitude?_word word) lead
    | literal l =>
        rw [l.rounded_eq]
        exact literal_lead (magnitude?_chars l.toFigures) l.lead

theorem fault_of_literal (refused : literal cs = .error fault) : fault = .empty ↔ cs = [] := by
  by_cases filled : cs = []
  · subst filled
    cases refused
    simp
  · rw [literal_eq filled] at refused
    cases found : magnitude? (Lead.split cs).2 with
    | some m =>
        rw [found] at refused
        cases refused
    | none =>
        rw [found] at refused
        cases refused
        simp [filled]

theorem literal_eq_error_iff :
    literal cs = .error fault ↔ (∀ x, ¬ Denotes cs x) ∧ (fault = .empty ↔ cs = []) := by
  constructor
  · intro refused
    refine ⟨?_, fault_of_literal refused⟩
    intro x denotes
    rw [literal_eq_ok_iff.mpr denotes] at refused
    cases refused
  · rintro ⟨meaningless, kind⟩
    cases read : literal cs with
    | ok x => exact absurd (literal_eq_ok_iff.mp read) (meaningless x)
    | error other =>
        have same : other = .empty ↔ fault = .empty := (fault_of_literal read).trans kind.symm
        cases other <;> cases fault <;> simp_all

theorem numeric_of_denotes (denotes : Denotes cs x) : ∀ c ∈ cs, Numeric c := by
  cases denotes with
  | literal l => exact numeric_literal l
  | word lead word =>
      exact List.forall_mem_append.mpr
        ⟨numeric_lead lead, numeric_letters (isAlpha_of_word word)⟩

/-- The doubles that texts denote with any blanks around them. -/
def Means (cs : List Char) (x : Float) : Prop := ∃ core, Padded cs core ∧ Denotes core x

theorem literal_trim_eq_ok_iff : literal (Text.trim cs) = .ok x ↔ Means cs x := by
  rw [literal_eq_ok_iff]
  constructor
  · intro denotes
    exact ⟨_, Text.padded_trim cs, denotes⟩
  · rintro ⟨core, padded, denotes⟩
    rwa [Text.trim_eq_of_padded padded fun c member =>
      graphic_of_numeric (numeric_of_denotes denotes c member)]

theorem literal_trim_eq_error_iff : literal (Text.trim cs) = .error fault ↔
    (∀ x, ¬ Means cs x) ∧ (fault = .empty ↔ ∀ c ∈ cs, Text.isBlank c) := by
  simp only [literal_eq_error_iff, ← literal_eq_ok_iff, literal_trim_eq_ok_iff,
    Text.trim_eq_nil_iff]

theorem means_iff_of_isFinite (finite : x.isFinite) :
    Means cs x ↔ ∃ l : Literal, Padded cs l.chars ∧ x = l.rounded := by
  constructor
  · rintro ⟨core, padded, denotes⟩
    cases denotes with
    | literal l => exact ⟨l, padded, rfl⟩
    | word lead word =>
        have infinite := not_isFinite_word word
        cases lead with
        | bare | plus => exact absurd finite infinite
        | minus => exact absurd (Double.isFinite_neg_iff.mp finite) infinite
  · rintro ⟨l, padded, rfl⟩
    exact ⟨l.chars, padded, .literal l⟩

end TouchGesture.Decimal
