import TouchGesture.Proofs.Yaml.Key
import TouchGesture.Yaml.Token

/-! How a scanner reads a line of a block mapping: a key, a colon and an integer. -/

namespace TouchGesture.Yaml

def integerText (i : Int) : List Char := (if i < 0 then ['-'] else []) ++ Nat.toDigits 10 i.natAbs

def line (e : List Char × Int) : List Char :=
  keyText e.1 ++ ':' :: ' ' :: (integerText e.2 ++ ['\n'])

theorem isWord_of_isDigit {c : Char} (digit : c.isDigit) : isWord c := by
  simp [isWord, Char.isAlphanum, digit]

theorem isSolid_of_isOrdinary {c : Char} (ordinary : isOrdinary c) : isSolid c := by
  simp [isSolid, not_isBlank_of_isOrdinary ordinary, not_isBreak_of_isOrdinary ordinary,
    ne_of_isOrdinary ordinary (d := ':') rfl]

theorem mem_integerText {i : Int} {c : Char} (member : c ∈ integerText i) :
    c = '-' ∨ c.isDigit := by
  rcases List.mem_append.mp member with sign | digit
  · by_cases negative : i < 0
    · rw [if_pos negative] at sign
      exact .inl (List.mem_singleton.mp sign)
    · rw [if_neg negative] at sign
      cases sign
  · exact .inr (Text.isDigit_toDigits i.natAbs c digit)

theorem isSolid_integerText {i : Int} {c : Char} (member : c ∈ integerText i) : isSolid c := by
  rcases mem_integerText member with rfl | digit
  · rfl
  · exact isSolid_of_isOrdinary (isOrdinary_of_isWord (isWord_of_isDigit digit))

theorem integerText_ne_nil (i : Int) : integerText i ≠ [] := by
  simp [integerText, Nat.toDigits_ne_nil]

theorem keyText_cons (key : List Char) :
    ∃ c tail, keyText key = c :: tail ∧ (isWord c ∨ c = '"') := by
  by_cases plain : key ≠ [] ∧ key.all isWord
  · obtain ⟨c, tail, rfl⟩ := List.exists_cons_of_ne_nil plain.1
    have word : isWord c := List.all_eq_true.mp plain.2 c List.mem_cons_self
    have style : keyStyle (c :: tail) = .plain := if_pos plain
    exact ⟨c, tail, by simp only [keyText, style], .inl word⟩
  · have style : keyStyle key = .quoted := if_neg plain
    exact ⟨'"', key.flatMap quotedChar ++ ['"'], by simp only [keyText, style], .inr rfl⟩

namespace Scan

def atLine (opened : Bool) (m : Mark) (tokens : List Token) (rest : List Char) : Scan where
  cursor := ⟨m, rest⟩
  indent := if opened then 0 else -1
  indents := if opened then [-1] else []
  tokens := tokens

def behindKey (opened : Bool) (m : Mark) (tokens : List Token) (key rest : List Char) : Scan where
  cursor := ⟨m.advance (keyText key).length, ':' :: ' ' :: rest⟩
  indent := if opened then 0 else -1
  indents := if opened then [-1] else []
  key? := some ⟨tokens.length, m, opened⟩
  keyAllowed := false
  tokens := tokens ++ [.scalar (keyStyle key) (String.ofList key)]

def atValue (m : Mark) (tokens : List Token) (rest : List Char) : Scan where
  cursor := ⟨m, rest⟩
  indent := 0
  indents := [-1]
  keyAllowed := false
  tokens := tokens

def opening (opened : Bool) : List Token := if opened then [] else [.blockMappingStart]

def isShort (key : List Char) : Bool := (keyText key).length ≤ 1024

section Steps

variable {opened : Bool} {m : Mark} {tokens : List Token} {c : Char} {key rest : List Char}

theorem toToken_visible {flow allowed : Bool} (lineBreak : isBreak c = false)
    (visible : c ∉ [' ', '#', '\t', '\ufeff']) :
    toToken flow false allowed m (c :: rest) = (allowed, ⟨m, c :: rest⟩) := by
  simp only [List.mem_cons, List.not_mem_nil, or_false, not_or] at visible
  simp [toToken, lineBreak, visible]

theorem readToken_ordinary {s : Scan} (here : s.cursor.rest = c :: rest) (ordinary : isOrdinary c) :
    s.readToken = s.plainText := by
  have other (d : Char) (special : isOrdinary d = false) : c ≠ d :=
    ne_of_isOrdinary ordinary special
  have unmarked : atDocumentMark (c :: rest) = false := by
    rcases rest with _ | ⟨d, _ | ⟨e, rest⟩⟩
    · rfl
    · rfl
    · simp [atDocumentMark, other '-' rfl, other '.' rfl]
  have plain : isIndicator c = false := by
    simp (disch := decide) [isIndicator, other]
  simp (disch := decide)
    [readToken, here, unmarked, plain, other, not_isBlank_of_isOrdinary ordinary]

theorem fresh_atLine :
    (atLine opened m tokens rest).dropStaleKeys = some (atLine opened m tokens rest) := by
  simp [dropStaleKeys, atLine, freshKey]

theorem closeBlocks_outermost {s : Scan} (outermost : s.indent ≤ 0) (column : Nat) :
    s.closeBlocks column = s := by
  have stays : closed column s.indent s.indents = (0, s.indent, s.indents) := by
    have deeper : ¬ (column : Int) < s.indent := by omega
    cases s.indents with
    | nil => rfl
    | cons outer indents => simp only [closed, deeper, if_false]
  simp [closeBlocks, stays]

/-- A scanner that stands at a token reads it, unless it has a key to give up or an inner collection
to close. -/
theorem step_visible {s : Scan} (here : s.cursor.rest = c :: rest) (lineBreak : isBreak c = false)
    (visible : c ∉ [' ', '#', '\t', '\ufeff']) (fresh : s.dropStaleKeys = some s)
    (outermost : s.indent ≤ 0) : s.step = s.readToken := by
  have stays : toToken s.flow false s.keyAllowed s.mark s.cursor.rest =
      (s.keyAllowed, s.cursor) := by
    rw [here, toToken_visible lineBreak visible, ← here]
    rfl
  simp only [step, stays, fresh]
  exact congrArg readToken (closeBlocks_outermost outermost s.mark.column)

theorem outermost_atLine : (atLine opened m tokens rest).indent ≤ 0 := by
  cases opened <;> simp [atLine]

theorem saveKey_atLine (start : m.column = 0) :
    (atLine opened m tokens rest).saveKey =
      some { atLine opened m tokens rest with key? := some ⟨tokens.length, m, opened⟩ } := by
  cases opened <;> simp [saveKey, dropKey, atLine, flow, mark, start]

theorem plainText_key (start : m.column = 0) (words : ∀ d ∈ key, isWord d)
    (style : keyStyle key = .plain) :
    (atLine opened m tokens (key ++ ':' :: ' ' :: rest)).plainText =
      some (behindKey opened m tokens key rest) := by
  have solid : ∀ d ∈ key, isSolid d := fun d member =>
    isSolid_of_isOrdinary (isOrdinary_of_isWord (words d member))
  have read (indent : Nat) : plainScalar false indent {} false m (key ++ ':' :: ' ' :: rest) =
      some ({ text := key }, ⟨m.advance key.length, ':' :: ' ' :: rest⟩) := by
    rw [plainScalar_solid solid, plainScalar_colon]
    rfl
  rw [plainText, saveKey_atLine start]
  simp [flow, mark, atLine, read, behindKey, keyText, style, emit]

theorem quotedText_key (start : m.column = 0) (style : keyStyle key = .quoted) :
    (atLine opened m tokens
      ('"' :: (key.flatMap quotedChar ++ '"' :: ':' :: ' ' :: rest))).quotedText true =
      some (behindKey opened m tokens key rest) := by
  have read : doubleQuoted {} 0 0 (m.advance 1)
      (key.flatMap quotedChar ++ '"' :: ':' :: ' ' :: rest) =
      some ({ text := key },
        ⟨(m.advance 1).advance ((key.flatMap quotedChar).length + 1), ':' :: ' ' :: rest⟩) :=
    doubleQuoted_key (Nat.succ_ne_zero m.column)
  rw [quotedText, saveKey_atLine start]
  simp only [atLine, Cursor.next, Cursor.skip]
  simp [read, behindKey, keyText, style, emit, Nat.add_comm]

theorem readToken_quote {s : Scan} (here : s.cursor.rest = '"' :: rest) :
    s.readToken = s.quotedText true := by
  have unmarked : atDocumentMark ('"' :: rest) = false := by
    rcases rest with _ | ⟨d, _ | ⟨e, rest⟩⟩ <;> simp [atDocumentMark]
  simp [readToken, here, unmarked]

theorem step_key (start : m.column = 0) :
    (atLine opened m tokens (keyText key ++ ':' :: ' ' :: rest)).step =
      some (behindKey opened m tokens key rest) := by
  by_cases plain : key ≠ [] ∧ key.all isWord
  · have style : keyStyle key = .plain := if_pos plain
    have words : ∀ d ∈ key, isWord d := List.all_eq_true.mp plain.2
    have text : keyText key = key := by
      simp only [keyText, style]
    obtain ⟨c, tail, rfl⟩ := List.exists_cons_of_ne_nil plain.1
    have ordinary := isOrdinary_of_isWord (words c List.mem_cons_self)
    have visible : c ∉ [' ', '#', '\t', '\ufeff'] := by
      simp (disch := decide) [ne_of_isOrdinary ordinary]
    have reached : (atLine opened m tokens (c :: tail ++ ':' :: ' ' :: rest)).step =
        (atLine opened m tokens (c :: tail ++ ':' :: ' ' :: rest)).readToken :=
      step_visible rfl (not_isBreak_of_isOrdinary ordinary) visible fresh_atLine outermost_atLine
    rw [text, reached, readToken_ordinary rfl ordinary]
    exact plainText_key start words style
  · have style : keyStyle key = .quoted := if_neg plain
    have text : keyText key ++ ':' :: ' ' :: rest =
        '"' :: (key.flatMap quotedChar ++ '"' :: ':' :: ' ' :: rest) := by
      simp [keyText, style]
    rw [text, step_visible (c := '"') rfl rfl (by decide) fresh_atLine outermost_atLine,
      readToken_quote rfl]
    exact quotedText_key start style

theorem fresh_behindKey (short : isShort key) :
    (behindKey opened m tokens key rest).dropStaleKeys =
      some (behindKey opened m tokens key rest) := by
  have kept : ¬ m.index + 1024 < m.index + (keyText key).length := by
    simp only [isShort, decide_eq_true_eq] at short
    omega
  simp [dropStaleKeys, behindKey, freshKey, SimpleKey.isStale, mark, Mark.advance, kept]

/-- A key that is too long is given up, or else it had to be one. -/
theorem stale_behindKey (long : isShort key = false) :
    (behindKey opened m tokens key rest).dropStaleKeys =
      if opened then none else some { behindKey opened m tokens key rest with key? := none } := by
  have late : m.index + 1024 < m.index + (keyText key).length := by
    simp only [isShort, decide_eq_false_iff_not] at long
    omega
  cases opened <;>
    simp [dropStaleKeys, behindKey, freshKey, SimpleKey.isStale, mark, Mark.advance, late]

theorem readToken_colon {s : Scan} (here : s.cursor.rest = ':' :: ' ' :: rest) :
    s.readToken = s.colon := by
  have unmarked : atDocumentMark (':' :: ' ' :: rest) = false := by
    cases rest <;> simp [atDocumentMark]
  simp [readToken, here, unmarked, wordEnds, isBlank]

theorem step_colon (start : m.column = 0) (short : isShort key) :
    (behindKey opened m tokens key rest).step =
      some (atValue (m.advance ((keyText key).length + 1))
        (tokens ++ opening opened ++
          [.key, .scalar (keyStyle key) (String.ofList key), .value]) (' ' :: rest)) := by
  have outermost : (behindKey opened m tokens key rest).indent ≤ 0 := by
    cases opened <;> simp [behindKey]
  rw [step_visible (c := ':') rfl rfl (by decide) (fresh_behindKey short) outermost,
    readToken_colon rfl]
  cases opened <;>
    simp [colon, behindKey, atValue, opening, openBlock, flow, take, emit, start, Cursor.skip]

theorem readToken_integer {s : Scan} {i : Int} (here : s.cursor.rest = integerText i ++ rest)
    (inside : s.mark.column ≠ 0) : s.readToken = s.plainText := by
  obtain ⟨d, ds, digits⟩ :=
    List.exists_cons_of_ne_nil (Nat.toDigits_ne_nil (b := 10) (n := i.natAbs))
  have digit : d.isDigit := Text.isDigit_toDigits i.natAbs d (digits ▸ List.mem_cons_self)
  have ordinary : isOrdinary d := isOrdinary_of_isWord (isWord_of_isDigit digit)
  by_cases negative : i < 0
  · have minus : s.cursor.rest = '-' :: d :: (ds ++ rest) := by
      simp [here, integerText, negative, digits]
    simp [readToken, minus, inside, wordEnds, not_isBlank_of_isOrdinary ordinary,
      not_isBreak_of_isOrdinary ordinary]
  · have first : s.cursor.rest = d :: (ds ++ rest) := by
      simp [here, integerText, negative, digits]
    exact readToken_ordinary first ordinary

theorem step_blank (lineBreak : isBreak c = false) (visible : c ∉ [' ', '#', '\t', '\ufeff']) :
    (atValue m tokens (' ' :: c :: rest)).step = (atValue m.next tokens (c :: rest)).readToken := by
  have reached : toToken false false false m
      (' ' :: c :: rest) = (false, ⟨m.next, c :: rest⟩) := by
    have skipped (more : List Char) :
        toToken false false false m (' ' :: more) = toToken false false false m.next more := by
      simp [toToken, isBreak]
    rw [skipped, toToken_visible lineBreak visible]
  have fresh : (atValue m.next tokens (c :: rest)).dropStaleKeys =
      some (atValue m.next tokens (c :: rest)) := by
    simp [dropStaleKeys, atValue, freshKey]
  have outermost : (atValue m.next tokens (c :: rest)).indent ≤ 0 := Int.le_refl 0
  have arrived : (atValue m tokens (' ' :: c :: rest)).step =
      (atValue m.next tokens (c :: rest)).dropStaleKeys.bind fun s =>
        (s.closeBlocks s.mark.column).readToken := by
    simp only [step, atValue, flow, mark, List.isEmpty_nil, Bool.not_true, reached]
    rfl
  rw [arrived, fresh]
  exact congrArg readToken (closeBlocks_outermost outermost m.next.column)

theorem step_strayColon :
    ({ behindKey false m tokens key rest with key? := none } : Scan).step = none := by
  rw [step_visible (c := ':') rfl rfl (by decide) rfl (Int.negSucc_le_zero 0), readToken_colon rfl]
  simp [colon, behindKey, flow]

theorem step_integer {i : Int}
    (outside : ∀ c ∈ rest.head?, isBlank c = false ∧ isBreak c = false) :
    (atValue m tokens (' ' :: (integerText i ++ '\n' :: rest))).step =
      some (atLine true ((m.advance ((integerText i).length + 1)).nextLine)
        (tokens ++ [.scalar .plain (String.ofList (integerText i))]) rest) := by
  have reached : (atValue m tokens (' ' :: (integerText i ++ '\n' :: rest))).step =
      (atValue m.next tokens (integerText i ++ '\n' :: rest)).readToken := by
    obtain ⟨c, tail, text⟩ := List.exists_cons_of_ne_nil (integerText_ne_nil i)
    rw [text, List.cons_append]
    rcases mem_integerText (text ▸ List.mem_cons_self) with rfl | digit
    · exact step_blank rfl (by decide)
    · have ordinary := isOrdinary_of_isWord (isWord_of_isDigit digit)
      exact step_blank (not_isBreak_of_isOrdinary ordinary)
        (by simp (disch := decide) [ne_of_isOrdinary ordinary])
  have read : plainScalar false 1 {} false (m.advance 1) (integerText i ++ '\n' :: rest) =
      some ({ text := integerText i, break? := some ['\n'] },
        ⟨((m.advance 1).advance (integerText i).length).nextLine, rest⟩) := by
    rw [plainScalar_solid fun c member => isSolid_integerText member, plainScalar_break outside]
    rfl
  have plain : (atValue m.next tokens (integerText i ++ '\n' :: rest)).readToken =
      (atValue m.next tokens (integerText i ++ '\n' :: rest)).plainText :=
    readToken_integer rfl (Nat.succ_ne_zero m.column)
  rw [reached, plain, plainText]
  simp [saveKey, atValue, flow, mark, read, atLine, emit, Mark.next, Nat.add_comm]

theorem step_end (start : m.column = 0) :
    (atLine opened m tokens []).step =
      some { cursor := ⟨m, []⟩
             tokens := tokens ++ (if opened then [.blockEnd] else []) ++ [.streamEnd]
             ended := true
             keyAllowed := false } := by
  cases opened <;>
    simp [step, atLine, toToken, dropStaleKeys, freshKey, closeBlocks, closed, flow, readToken,
      endStream, dropKey, emit, mark, start]

end Steps

end Scan

end TouchGesture.Yaml
