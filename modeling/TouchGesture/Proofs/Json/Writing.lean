import TouchGesture.Json.Print
import TouchGesture.Proofs.Json.Spelling

/-! Both writers of JSON spell the value that they write. -/

namespace TouchGesture.Json

/-- The values whose text is JSON: whole, with numbers and strings that can be written. -/
inductive Writable : Json → Prop where
  | null : Writable .null
  | bool (b : Bool) : Writable (.bool b)
  | number {n : Numeral} (plain : n.Plain) : Writable (.number n)
  | string {body : List Char} (written : Body body) : Writable (.string body)
  | array {js : List Json} (items : ∀ j ∈ js, Writable j) : Writable (.array js true)
  | object {fs : List (List Char × Json)} (keys : ∀ f ∈ fs, Body f.1)
      (items : ∀ f ∈ fs, Writable f.2) :
      Writable (.object (fs.map fun f => (.string f.1, f.2)) true)

def isVerbatim (c : Char) : Bool := 0x20 ≤ c.toNat && c ≠ '"' && c ≠ '\\'

def escaped (cs : List Char) : List Char :=
  cs.flatMap fun c => if isVerbatim c then [c] else '\\' :: 'u' :: Text.hexText 4 c.toNat

theorem hexText_four {n : Nat} (narrow : n < 0x10000) :
    ∃ a b c d, Text.hexText 4 n = [a, b, c, d] ∧ hex4? a b c d = some n := by
  have digit (k : Nat) : Text.hexDigit? (Nat.digitChar (n / 16 ^ k % 16)) =
      some (n / 16 ^ k % 16) :=
    Text.hexDigit?_digitChar _ (Nat.mod_lt _ (by decide))
  refine ⟨_, _, _, _, rfl, ?_⟩
  simp only [hex4?, digit, Option.pure_def, Option.bind_eq_bind, Option.bind_some]
  congr 1
  omega

theorem toNat_lt_of_not_isVerbatim {c : Char} (escape : isVerbatim c = false) : c.toNat < 128 := by
  simp only [isVerbatim, Bool.and_eq_false_iff, decide_eq_false_iff_not, Nat.not_le,
    ne_eq, Decidable.not_not] at escape
  rcases escape with (control | rfl) | rfl
  · omega
  · decide
  · decide

theorem body_escaped (cs : List Char) : Body (escaped cs) := by
  induction cs with
  | nil => exact .nil
  | cons c cs ih =>
      cases verbatim : isVerbatim c with
      | true =>
          have text : escaped (c :: cs) = c :: escaped cs := by
            simp [escaped, verbatim]
          simp only [isVerbatim, Bool.and_eq_true, decide_eq_true_eq] at verbatim
          rw [text]
          exact .plain verbatim.1.1 verbatim.1.2 verbatim.2 ih
      | false =>
          have small := toNat_lt_of_not_isVerbatim verbatim
          obtain ⟨x, y, z, w, digits, means⟩ := hexText_four (n := c.toNat) (by omega)
          have text : escaped (c :: cs) = '\\' :: 'u' :: x :: y :: z :: w :: escaped cs := by
            simp [escaped, verbatim, digits]
          rw [text]
          exact .code (Option.isSome_of_eq_some means) ih

theorem unescape?_escaped (cs : List Char) : unescape? (escaped cs) = some cs := by
  induction cs with
  | nil => rfl
  | cons c cs ih =>
      cases verbatim : isVerbatim c with
      | true =>
          have text : escaped (c :: cs) = c :: escaped cs := by
            simp [escaped, verbatim]
          have backslash : c ≠ '\\' := by
            rintro rfl
            cases verbatim
          simp [text, unescape?, backslash, ih]
      | false =>
          have small := toNat_lt_of_not_isVerbatim verbatim
          obtain ⟨x, y, z, w, digits, means⟩ := hexText_four (n := c.toNat) (by omega)
          have text : escaped (c :: cs) = '\\' :: 'u' :: x :: y :: z :: w :: escaped cs := by
            simp [escaped, verbatim, digits]
          have low : ¬ (0xDC00 ≤ c.toNat ∧ c.toNat ≤ 0xDFFF) := by omega
          have high : ¬ (0xD800 ≤ c.toNat ∧ c.toNat ≤ 0xDBFF) := by omega
          simp [text, unescape?, means, low, high, ih]

theorem blanks_nil : Blanks [] := nofun

theorem blanks_newline (depth : Nat) : Blanks (newline depth) := by
  intro c member
  simp only [newline, List.mem_cons, List.mem_replicate] at member
  rcases member with rfl | ⟨-, rfl⟩ <;> rfl

theorem Spells.after_blanks {ws cs : List Char} {j : Json} (blanks : Blanks ws)
    (spells : Spells (.value j) cs) : Spells (.value j) (ws ++ cs) := by
  induction ws with
  | nil => exact spells
  | cons c ws ih =>
      exact .blank (blanks c List.mem_cons_self) (ih fun d member => blanks d (.tail c member))

theorem spells_compactItems {j : Json} {js : List Json} (first : Spells (.value j) (compactChars j))
    (others : ∀ k ∈ js, Spells (.value k) (compactChars k)) :
    Spells (.items (j :: js)) (compactChars j ++ compactItems js) := by
  induction js generalizing j with
  | nil => exact .lastItem first blanks_nil
  | cons k js ih =>
      have left := ih (others k List.mem_cons_self) fun l member => others l (.tail k member)
      exact .item first blanks_nil left

theorem spells_compactFields {key : List Char} {j : Json} {fs : List (List Char × Json)}
    (written : Body key) (first : Spells (.value j) (compactChars j))
    (keys : ∀ f ∈ fs, Body f.1)
    (others : ∀ f ∈ fs, Spells (.value f.2) (compactChars f.2)) :
    Spells (.fields ((.string key, j) :: fs.map fun f => (.string f.1, f.2)))
      (compactChars (.string key) ++ ':' :: (compactChars j ++
        compactFields (fs.map fun f => (.string f.1, f.2)))) := by
  induction fs generalizing key j with
  | nil => exact .lastField (.string written) blanks_nil first blanks_nil
  | cons f fs ih =>
      have left := ih (keys f List.mem_cons_self) (others f List.mem_cons_self)
        (fun g member => keys g (.tail f member)) fun g member => others g (.tail f member)
      exact .field (.string written) blanks_nil first blanks_nil left

theorem spells_compact {j : Json} (writable : Writable j) : Spells (.value j) (compactChars j) := by
  induction writable with
  | null => exact .null
  | bool b =>
      cases b with
      | true => exact .true
      | false => exact .false
  | number plain => exact .number plain
  | string written => exact .string written
  | @array js items ih =>
      cases js with
      | nil => exact .emptyArray blanks_nil
      | cons j js =>
          exact .array
            (spells_compactItems (ih j List.mem_cons_self) fun k member => ih k (.tail j member))
  | @object fs keys items ih =>
      cases fs with
      | nil => exact .emptyObject blanks_nil
      | cons f fs =>
          exact .object (spells_compactFields (keys f List.mem_cons_self) (ih f List.mem_cons_self)
            (fun g member => keys g (.tail f member)) fun g member => ih g (.tail f member))

section Pretty

variable {depth : Nat} {j : Json}

theorem spells_prettyItems {js : List Json} (first : Spells (.value j) (prettyChars (depth + 1) j))
    (others : ∀ k ∈ js, Spells (.value k) (prettyChars (depth + 1) k)) :
    Spells (.items (j :: js))
      (newline (depth + 1) ++ prettyChars (depth + 1) j ++ prettyItems depth js) := by
  have indented := first.after_blanks (blanks_newline (depth + 1))
  induction js generalizing j with
  | nil => exact .lastItem indented (blanks_newline depth)
  | cons k js ih =>
      have next : Spells (.value k) (prettyChars (depth + 1) k) := others k List.mem_cons_self
      have left := ih next (fun l member => others l (.tail k member))
        (next.after_blanks (blanks_newline (depth + 1)))
      exact .item indented blanks_nil left

theorem spells_prettyFields {key : List Char} {fs : List (List Char × Json)}
    (written : Body key) (first : Spells (.value j) (prettyChars (depth + 1) j))
    (keys : ∀ f ∈ fs, Body f.1)
    (others : ∀ f ∈ fs, Spells (.value f.2) (prettyChars (depth + 1) f.2)) :
    Spells (.fields ((.string key, j) :: fs.map fun f => (.string f.1, f.2)))
      (newline (depth + 1) ++ compactChars (.string key) ++ ':' :: ' ' ::
        (prettyChars (depth + 1) j ++
          prettyFields depth (fs.map fun f => (.string f.1, f.2)))) := by
  have name := (Spells.string written).after_blanks (blanks_newline (depth + 1))
  have item : Spells (.value j) (' ' :: prettyChars (depth + 1) j) := .blank rfl first
  induction fs generalizing key j with
  | nil => exact .lastField name blanks_nil item (blanks_newline depth)
  | cons f fs ih =>
      have next := others f List.mem_cons_self
      have known := keys f List.mem_cons_self
      have left := ih known next (fun g member => keys g (.tail f member))
        (fun g member => others g (.tail f member))
        ((Spells.string known).after_blanks (blanks_newline (depth + 1))) (.blank rfl next)
      exact .field name blanks_nil item blanks_nil left

end Pretty

theorem spells_pretty {j : Json} (writable : Writable j) (depth : Nat) :
    Spells (.value j) (prettyChars depth j) := by
  induction writable generalizing depth with
  | null => exact .null
  | bool b =>
      cases b with
      | true => exact .true
      | false => exact .false
  | number plain => exact .number plain
  | string written => exact .string written
  | @array js items ih =>
      cases js with
      | nil => exact .emptyArray blanks_nil
      | cons j js =>
          exact .array (spells_prettyItems (ih j List.mem_cons_self (depth + 1))
            fun k member => ih k (.tail j member) (depth + 1))
  | @object fs keys items ih =>
      cases fs with
      | nil => exact .emptyObject blanks_nil
      | cons f fs =>
          exact .object (spells_prettyFields (keys f List.mem_cons_self)
            (ih f List.mem_cons_self (depth + 1)) (fun g member => keys g (.tail f member))
            fun g member => ih g (.tail f member) (depth + 1))

/-- What a writer has written is read as it was. -/
theorem ofText_compact {j : Json} (writable : Writable j) : ofText j.compact = (j, true) := by
  simpa [compact] using ofText_spelled (spells_compact writable) blanks_nil

theorem ofText_pretty {j : Json} (writable : Writable j) : ofText j.pretty = (j, true) := by
  simpa [pretty] using ofText_spelled (spells_pretty writable 0) blanks_nil

end TouchGesture.Json
