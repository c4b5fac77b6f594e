import TouchGesture.Proofs.Json.Numeral

/-! The ways in which a JSON value can be written, and that each of them is read as the value. -/

namespace TouchGesture.Json

open Text (Stops)

def Blanks (ws : List Char) : Prop := ∀ c ∈ ws, isBlank c

inductive Body : List Char → Prop where
  | nil : Body []
  | plain {c : Char} {body : List Char} (printable : 0x20 ≤ c.toNat) (quote : c ≠ '"')
      (backslash : c ≠ '\\') (more : Body body) : Body (c :: body)
  | escape {c : Char} {body : List Char} (known : (escape? c).isSome) (more : Body body) :
      Body ('\\' :: c :: body)
  | code {a b c d : Char} {body : List Char} (digits : (hex4? a b c d).isSome) (more : Body body) :
      Body ('\\' :: 'u' :: a :: b :: c :: d :: body)

inductive Part where
  | value (j : Json)
  | items (items : List Json)
  | fields (fields : List (Json × Json))

/-- The texts of a value, with blanks wherever they may stand but behind it. Items and fields
include the bracket or brace that ends them. -/
inductive Spells : Part → List Char → Prop where
  | blank {j : Json} {c : Char} {cs : List Char} (blank : isBlank c) (more : Spells (.value j) cs) :
      Spells (.value j) (c :: cs)
  | null : Spells (.value .null) ['n', 'u', 'l', 'l']
  | true : Spells (.value (.bool true)) ['t', 'r', 'u', 'e']
  | false : Spells (.value (.bool false)) ['f', 'a', 'l', 's', 'e']
  | number {n : Numeral} (plain : n.Plain) : Spells (.value (.number n)) n.chars
  | string {body : List Char} (written : Body body) :
      Spells (.value (.string body)) ('"' :: (body ++ ['"']))
  | emptyArray {ws : List Char} (blanks : Blanks ws) :
      Spells (.value (.array [] true)) ('[' :: (ws ++ [']']))
  | array {js : List Json} {cs : List Char} (items : Spells (.items js) cs) :
      Spells (.value (.array js true)) ('[' :: cs)
  | emptyObject {ws : List Char} (blanks : Blanks ws) :
      Spells (.value (.object [] true)) ('{' :: (ws ++ ['}']))
  | object {fs : List (Json × Json)} {cs : List Char} (fields : Spells (.fields fs) cs) :
      Spells (.value (.object fs true)) ('{' :: cs)
  | lastItem {j : Json} {cs ws : List Char} (item : Spells (.value j) cs) (blanks : Blanks ws) :
      Spells (.items [j]) (cs ++ (ws ++ [']']))
  | item {j : Json} {js : List Json} {cs ws more : List Char} (item : Spells (.value j) cs)
      (blanks : Blanks ws) (items : Spells (.items js) more) :
      Spells (.items (j :: js)) (cs ++ (ws ++ ',' :: more))
  | lastField {name : List Char} {j : Json} {ks ws cs ws' : List Char}
      (key : Spells (.value (.string name)) ks) (blanks : Blanks ws) (item : Spells (.value j) cs)
      (blanks' : Blanks ws') :
      Spells (.fields [(.string name, j)]) (ks ++ (ws ++ ':' :: (cs ++ (ws' ++ ['}']))))
  | field {name : List Char} {j : Json} {fs : List (Json × Json)} {ks ws cs ws' more : List Char}
      (key : Spells (.value (.string name)) ks) (blanks : Blanks ws) (item : Spells (.value j) cs)
      (blanks' : Blanks ws') (fields : Spells (.fields fs) more) :
      Spells (.fields ((.string name, j) :: fs)) (ks ++ (ws ++ ':' :: (cs ++ (ws' ++ ',' :: more))))

section Reading

variable {c : Char} {ws body rest : List Char} {fuel : Nat}

theorem skipBlanks_blanks (blanks : Blanks ws) (visible : isBlank c = false) :
    skipBlanks (ws ++ c :: rest) = c :: rest :=
  Text.dropWhile_run blanks (Text.stops_cons.mpr visible)

theorem value_blank (blank : isBlank c) : value fuel (c :: rest) = value fuel rest := by
  cases fuel with
  | zero => rfl
  | succ fuel => simp only [value, skipBlanks, List.dropWhile_cons, blank, if_true]

theorem items_bracket : (items fuel (']' :: rest)).2 = none := by
  cases fuel with
  | zero => rfl
  | succ fuel =>
      cases fuel with
      | zero => rfl
      | succ fuel => rfl

theorem fields_brace : (fields fuel ('}' :: rest)).2 = none := by
  cases fuel with
  | zero => rfl
  | succ fuel =>
      cases fuel with
      | zero => rfl
      | succ fuel => rfl

theorem value_skipBlanks : value fuel (skipBlanks rest) = value fuel rest := by
  induction rest with
  | nil => rfl
  | cons c rest ih =>
      by_cases blank : isBlank c
      · rw [value_blank blank, ← ih]
        simp only [skipBlanks, List.dropWhile_cons, blank, if_true]
      · simp only [skipBlanks, List.dropWhile_cons, blank, if_false, Bool.false_eq_true]

theorem items_skipBlanks : items fuel (skipBlanks rest) = items fuel rest := by
  cases fuel with
  | zero => rfl
  | succ fuel => simp only [items, value_skipBlanks]

theorem fields_skipBlanks : fields fuel (skipBlanks rest) = fields fuel rest := by
  cases fuel with
  | zero => rfl
  | succ fuel => simp only [fields, value_skipBlanks]

theorem body?_append (written : Body body) : body? (body ++ '"' :: rest) = some (body, rest) := by
  induction written with
  | nil => rfl
  | @plain c body printable quote backslash more ih =>
      have control : ¬ c.toNat < 0x20 := Nat.not_lt.mpr printable
      simp [body?, backslash, control, ih]
  | @escape c body known more ih =>
      have other : c ≠ 'u' := by
        rintro rfl
        cases known
      simp [body?, other, known, ih]
  | code digits more ih => simp [body?, digits, ih]

theorem continues_blank (blank : isBlank c) : continues c = false := by
  simp only [isBlank, Bool.or_eq_true, decide_eq_true_eq] at blank
  rcases blank with ((rfl | rfl) | rfl) | rfl <;> decide

theorem stops_append (blanks : Blanks ws) (stops : Stops continues rest) :
    Stops continues (ws ++ rest) := by
  cases ws with
  | nil => exact stops
  | cons b ws => exact Text.stops_cons.mpr (continues_blank (blanks b List.mem_cons_self))

theorem stops_blanks (blanks : Blanks ws) (separator : continues c = false) :
    Stops continues (ws ++ c :: rest) :=
  stops_append blanks (Text.stops_cons.mpr separator)

theorem value_number {n : Numeral} (plain : n.Plain) (stops : Stops continues rest) :
    value (fuel + 1) (n.chars ++ rest) = (.number n, some rest) := by
  have read : Numeral.lex? (n.chars ++ rest) = some (n, rest) := Numeral.lex?_chars plain stops
  obtain ⟨c, tail, first, start⟩ := plain.first_char
  have other (x : Char) (sign : x ≠ '-') (digit : x.isDigit = false) : c ≠ x := by
    rintro rfl
    simp [sign, digit] at start
  have visible : skipBlanks (c :: (tail ++ rest)) = c :: (tail ++ rest) := by
    apply Text.dropWhile_stops
    apply Text.stops_cons.mpr
    simp [isBlank, other ' ' (by decide) rfl, other '\n' (by decide) rfl,
      other '\t' (by decide) rfl, other '\r' (by decide) rfl]
  rw [first, List.cons_append] at read ⊢
  simp [value, visible, read, other 'n' (by decide) rfl, other 't' (by decide) rfl,
    other 'f' (by decide) rfl, other '"' (by decide) rfl, other '[' (by decide) rfl,
    other '{' (by decide) rfl]

theorem value_emptyArray (closed : skipBlanks rest = ']' :: body) :
    value (fuel + 1) ('[' :: rest) = (.array [] true, some body) := by
  have bracket : skipBlanks ('[' :: rest) = '[' :: rest := rfl
  simp only [value, bracket, closed]

theorem value_array {js : List Json} (read : items fuel rest = (js, some body)) :
    value (fuel + 1) ('[' :: rest) = (.array js true, some body) := by
  have bracket : skipBlanks ('[' :: rest) = '[' :: rest := rfl
  simp only [value, bracket]
  split
  · next tail closed =>
      -- there would be nothing to read
      have unread : (items fuel (skipBlanks rest)).2 = none := by
        rw [closed]
        exact items_bracket
      rw [items_skipBlanks, read] at unread
      cases unread
  · rw [items_skipBlanks, read]
    rfl

theorem value_emptyObject (closed : skipBlanks rest = '}' :: body) :
    value (fuel + 1) ('{' :: rest) = (.object [] true, some body) := by
  have brace : skipBlanks ('{' :: rest) = '{' :: rest := rfl
  simp only [value, brace, closed]

theorem value_object {fs : List (Json × Json)} (read : fields fuel rest = (fs, some body)) :
    value (fuel + 1) ('{' :: rest) = (.object fs true, some body) := by
  have brace : skipBlanks ('{' :: rest) = '{' :: rest := rfl
  simp only [value, brace]
  split
  · next tail closed =>
      have unread : (fields fuel (skipBlanks rest)).2 = none := by
        rw [closed]
        exact fields_brace
      rw [fields_skipBlanks, read] at unread
      cases unread
  · rw [fields_skipBlanks, read]
    rfl

section Lists

variable {j : Json} {js : List Json} {fs : List (Json × Json)} {cs tail more name : List Char}

theorem items_last (read : value fuel cs = (j, some rest))
    (closed : skipBlanks rest = ']' :: body) :
    items (fuel + 1) cs = ([j], some body) := by
  simp only [items, read, closed]

theorem items_more (read : value fuel cs = (j, some rest)) (comma : skipBlanks rest = ',' :: more)
    (others : items fuel more = (js, some body)) : items (fuel + 1) cs = (j :: js, some body) := by
  simp only [items, read, comma, others]

theorem fields_last (key : value fuel cs = (.string name, some rest))
    (colon : skipBlanks rest = ':' :: more) (read : value fuel more = (j, some tail))
    (closed : skipBlanks tail = '}' :: body) :
    fields (fuel + 1) cs = ([(.string name, j)], some body) := by
  simp only [fields, key, colon, read, closed]

theorem fields_more {others : List Char} (key : value fuel cs = (.string name, some rest))
    (colon : skipBlanks rest = ':' :: more) (read : value fuel more = (j, some tail))
    (comma : skipBlanks tail = ',' :: others) (left : fields fuel others = (fs, some body)) :
    fields (fuel + 1) cs = ((.string name, j) :: fs, some body) := by
  simp only [fields, key, colon, read, comma, left]

end Lists

/-- What reading a part of a text gives, whatever follows it. A value needs something behind it that
it does not go on with. -/
def Reads : Part → List Char → Prop
  | .value j, cs => ∀ fuel rest, cs.length < fuel → Stops continues rest →
      value fuel (cs ++ rest) = (j, some rest)
  | .items js, cs => ∀ fuel rest, cs.length < fuel → items fuel (cs ++ rest) = (js, some rest)
  | .fields fs, cs => ∀ fuel rest, cs.length < fuel → fields fuel (cs ++ rest) = (fs, some rest)

/-- Every text of a part is read as the part. -/
theorem reads_of_spells {part : Part} {cs : List Char} (spells : Spells part cs) :
    Reads part cs := by
  induction spells with
  | blank blank more ih =>
      intro fuel rest enough stops
      rw [List.cons_append, value_blank blank]
      exact ih fuel rest (by simp only [List.length_cons] at enough; omega) stops
  | null =>
      rintro (_ | fuel) rest enough stops
      · cases enough
      · rfl
  | true =>
      rintro (_ | fuel) rest enough stops
      · cases enough
      · rfl
  | false =>
      rintro (_ | fuel) rest enough stops
      · cases enough
      · rfl
  | number plain =>
      rintro (_ | fuel) rest enough stops
      · cases enough
      · exact value_number plain stops
  | string written =>
      rintro (_ | fuel) rest enough stops
      · cases enough
      · simp [value, skipBlanks, isBlank, body?_append written]
  | emptyArray blanks =>
      rintro (_ | fuel) rest enough stops
      · cases enough
      · rw [List.cons_append, List.append_assoc]
        apply value_emptyArray
        exact skipBlanks_blanks blanks rfl
  | array items ih =>
      rintro (_ | fuel) rest enough stops
      · cases enough
      · exact value_array (ih fuel rest (Nat.lt_of_succ_lt_succ enough))
  | emptyObject blanks =>
      rintro (_ | fuel) rest enough stops
      · cases enough
      · rw [List.cons_append, List.append_assoc]
        apply value_emptyObject
        exact skipBlanks_blanks blanks rfl
  | object fields ih =>
      rintro (_ | fuel) rest enough stops
      · cases enough
      · exact value_object (ih fuel rest (Nat.lt_of_succ_lt_succ enough))
  | @lastItem j cs ws item blanks ih =>
      rintro (_ | fuel) rest enough
      · cases enough
      · simp only [List.length_append, List.length_cons] at enough
        rw [List.append_assoc, List.append_assoc]
        exact items_last (ih fuel _ (by omega) (stops_blanks blanks rfl))
          (skipBlanks_blanks blanks rfl)
  | @item j js cs ws more item blanks items ihItem ihItems =>
      rintro (_ | fuel) rest enough
      · cases enough
      · simp only [List.length_append, List.length_cons] at enough
        rw [List.append_assoc, List.append_assoc]
        exact items_more (ihItem fuel _ (by omega) (stops_blanks blanks rfl))
          (skipBlanks_blanks blanks rfl) (ihItems fuel rest (by omega))
  | @lastField name j ks ws cs ws' key blanks item blanks' ihKey ihItem =>
      rintro (_ | fuel) rest enough
      · cases enough
      · simp only [List.length_append, List.length_cons] at enough
        simp only [List.append_assoc, List.cons_append]
        exact fields_last (ihKey fuel _ (by omega) (stops_blanks blanks rfl))
          (skipBlanks_blanks blanks rfl) (ihItem fuel _ (by omega) (stops_blanks blanks' rfl))
          (skipBlanks_blanks blanks' rfl)
  | @field name j fs ks ws cs ws' more key blanks item blanks' fields ihKey ihItem ihFields =>
      rintro (_ | fuel) rest enough
      · cases enough
      · simp only [List.length_append, List.length_cons] at enough
        simp only [List.append_assoc, List.cons_append]
        exact fields_more (ihKey fuel _ (by omega) (stops_blanks blanks rfl))
          (skipBlanks_blanks blanks rfl) (ihItem fuel _ (by omega) (stops_blanks blanks' rfl))
          (skipBlanks_blanks blanks' rfl) (ihFields fuel rest (by omega))

/-- A text that spells a value, with blanks behind it, is that value. -/
theorem ofText_spelled {j : Json} {cs : List Char} (spells : Spells (.value j) cs)
    (blanks : Blanks ws) :
    ofText (String.ofList (cs ++ ws)) = (j, true) := by
  have stops : Stops continues ws := by
    simpa using stops_append blanks Text.stops_nil
  have read : value (2 * (cs ++ ws).length + 2) (cs ++ ws) = (j, some ws) := by
    apply reads_of_spells spells
    · simp only [List.length_append]
      omega
    · exact stops
  have nothing : skipBlanks ws = [] := by
    simpa [skipBlanks] using Text.dropWhile_run blanks Text.stops_nil
  simp only [ofText, String.toList_ofList, read, nothing]
  rfl

end Reading

end TouchGesture.Json
