import TouchGesture.Yaml.Scalar
import TouchGesture.Yaml.Tag

/-! The tokens of a YAML text. Indentation and simple keys, which YAML leaves unmarked, get tokens
of their own: a colon turns the token before it into a key. -/

namespace TouchGesture.Yaml

inductive Token where
  | version (major minor : Nat)
  | tagHandle (handle : String) (expansion : Tag)
  | documentStart
  | documentEnd
  | streamEnd
  | blockSequenceStart
  | blockMappingStart
  | blockEnd
  | flowSequenceStart
  | flowSequenceEnd
  | flowMappingStart
  | flowMappingEnd
  | blockEntry
  | flowEntry
  | key
  | value
  | alias (name : String)
  | anchor (name : String)
  | tag (handle : String) (suffix : Tag)
  | scalar (style : Style) (text : String)
  deriving DecidableEq, Repr

/-- A token that a colon may yet turn into a key: how many tokens come before it, where it starts,
and whether it must be a key because a mapping is open at its column. -/
structure SimpleKey where
  position : Nat
  mark : Mark
  required : Bool

def SimpleKey.isStale (k : SimpleKey) (m : Mark) : Bool :=
  k.mark.line < m.line || k.mark.index + 1024 < m.index

/-- The tokens so far and what is open: the columns of the block collections, the innermost first,
and for every bracket around the place the simple key that was under way before it. -/
structure Scan where
  cursor : Cursor
  indent : Int := -1
  indents : List Int := []
  key? : Option SimpleKey := none
  outerKeys : List (Option SimpleKey) := []
  keyAllowed : Bool := true
  tokens : List Token := []
  ended : Bool := false

namespace Scan

def mark (s : Scan) : Mark := s.cursor.mark

def flow (s : Scan) : Bool := !s.outerKeys.isEmpty

def emit (s : Scan) (t : Token) : Scan := { s with tokens := s.tokens ++ [t] }

/-- Skips blanks, comments and line breaks. Outside brackets a tab may only separate, and after a
line break a key may start. A byte order mark at the start of a line is skipped too. -/
def toToken (flow comment keyAllowed : Bool) (m : Mark) : List Char → Bool × Cursor
  | [] => (keyAllowed, ⟨m, []⟩)
  | c :: rest =>
      if isBreak c then toToken flow false (!flow || keyAllowed) m.nextLine rest
      else if comment ∨ c = ' ' ∨ c = '#' ∨ (c = '\t' ∧ (flow ∨ ¬ keyAllowed)) ∨
          (c = '\ufeff' ∧ m.column = 0) then
        toToken flow (comment || c = '#') keyAllowed m.next rest
      else (keyAllowed, ⟨m, c :: rest⟩)

def dropKey (s : Scan) : Option Scan :=
  match s.key? with
  | some k => if k.required then none else some { s with key? := none }
  | none => some s

def saveKey (s : Scan) : Option Scan :=
  if s.keyAllowed then do
    let s ← s.dropKey
    return { s with
      key? := some ⟨s.tokens.length, s.mark, !s.flow && s.indent = s.mark.column⟩ }
  else some s

def freshKey (m : Mark) : Option SimpleKey → Option (Option SimpleKey)
  | some k => if k.isStale m then (if k.required then none else some none) else some (some k)
  | none => some none

def dropStaleKeys (s : Scan) : Option Scan := do
  let outerKeys ← s.outerKeys.mapM (freshKey s.mark)
  let key? ← freshKey s.mark s.key?
  return { s with key?, outerKeys }

def openBlock (s : Scan) (column position : Nat) (t : Token) : Scan :=
  if s.flow ∨ column ≤ s.indent then s
  else { s with
    indent := column
    indents := s.indent :: s.indents
    tokens := s.tokens.take position ++ t :: s.tokens.drop position }

def closed (column : Int) : Int → List Int → Nat × Int × List Int
  | indent, [] => (0, indent, [])
  | indent, outer :: indents =>
      if column < indent then
        let (n, rest) := closed column outer indents
        (n + 1, rest)
      else (0, indent, outer :: indents)

def closeBlocks (s : Scan) (column : Int) : Scan :=
  if s.flow then s
  else
    let (n, indent, indents) := closed column s.indent s.indents
    { s with indent, indents, tokens := s.tokens ++ List.replicate n .blockEnd }

def take (s : Scan) (n : Nat) (t : Token) : Scan :=
  { s.emit t with cursor := s.cursor.skip n }

def endStream (s : Scan) : Option Scan := do
  let s ← (s.closeBlocks (-1)).dropKey
  let m := s.mark
  let m := if m.column = 0 then m else m.nextLine
  return { s.emit .streamEnd with ended := true, keyAllowed := false, cursor := ⟨m, []⟩ }

def documentMark (s : Scan) (t : Token) : Option Scan := do
  let s ← (s.closeBlocks (-1)).dropKey
  return { s.take 3 t with keyAllowed := false }

def openFlow (s : Scan) (t : Token) : Option Scan := do
  let s ← s.saveKey
  return { s.take 1 t with keyAllowed := true, key? := none, outerKeys := s.key? :: s.outerKeys }

def closeFlow (s : Scan) (t : Token) : Option Scan := do
  let s ← s.dropKey
  let s := { s.take 1 t with keyAllowed := false }
  match s.outerKeys with
  | [] => return s
  | key? :: outerKeys => return { s with key?, outerKeys }

def flowEntry (s : Scan) : Option Scan := do
  let s ← s.dropKey
  return { s.take 1 .flowEntry with keyAllowed := true }

def blockEntry (s : Scan) : Option Scan := do
  if !s.flow && !s.keyAllowed then none
  let s ← (s.openBlock s.mark.column s.tokens.length .blockSequenceStart).dropKey
  return { s.take 1 .blockEntry with keyAllowed := true }

def explicitKey (s : Scan) : Option Scan := do
  if !s.flow && !s.keyAllowed then none
  let s ← (s.openBlock s.mark.column s.tokens.length .blockMappingStart).dropKey
  return { s.take 1 .key with keyAllowed := !s.flow }

def colon (s : Scan) : Option Scan := do
  match s.key? with
  | some k =>
      let s := { s with
        tokens := s.tokens.take k.position ++ Token.key :: s.tokens.drop k.position
        key? := none
        keyAllowed := false }
      return (s.openBlock k.mark.column k.position .blockMappingStart).take 1 .value
  | none =>
      if !s.flow && !s.keyAllowed then none
      let s := s.openBlock s.mark.column s.tokens.length .blockMappingStart
      return { s.take 1 .value with keyAllowed := !s.flow }

def anchorName? (c : Cursor) : Option (String × Cursor) :=
  let c := c.next
  let name := c.rest.takeWhile isNameChar
  let c := c.skip name.length
  let ends := wordEnds c.rest || match c.rest with
    | ch :: _ => ch ∈ ['?', ':', ',', ']', '}', '%', '@', '\x60']
    | [] => true
  if name.isEmpty ∨ ¬ ends then none else some (String.ofList name, c)

def anchor (s : Scan) (token : String → Token) : Option Scan := do
  let s ← s.saveKey
  let (name, cursor) ← anchorName? s.cursor
  return { s.emit (token name) with keyAllowed := false, cursor }

def tag (s : Scan) : Option Scan := do
  let s ← s.saveKey
  let (handle, suffix, cursor) ← Tag.ofCursor? s.cursor
  if !wordEnds cursor.rest && !(s.flow && cursor.rest.head? = some ',') then none
  return { s.emit (.tag handle suffix) with keyAllowed := false, cursor }

def versionNumber? (c : Cursor) : Option (Nat × Cursor) :=
  let ds := c.rest.takeWhile Char.isDigit
  if ds.isEmpty ∨ 9 < ds.length then none
  else some (Nat.ofDigitChars 10 ds 0, c.skip ds.length)

def directiveToken? (c : Cursor) : Option (Token × Cursor) := do
  let name := c.rest.takeWhile isNameChar
  let c := c.skip name.length
  if !wordEnds c.rest then none
  let c := c.skipWhile isBlank
  if name = ['Y', 'A', 'M', 'L'] then
    let (major, c) ← versionNumber? c
    if c.rest.head? ≠ some '.' then none
    let (minor, c) ← versionNumber? c.next
    return (.version major minor, c)
  else if name = ['T', 'A', 'G'] then
    let (handle, expansion, c) ← Tag.definition? c
    return (.tagHandle handle expansion, c)
  else none

def directive (s : Scan) : Option Scan := do
  let s ← (s.closeBlocks (-1)).dropKey
  let (t, c) ← directiveToken? s.cursor.next
  return { s.emit t with keyAllowed := false, cursor := ← c.finishLine? }

def blockText (s : Scan) (style : Style) : Option Scan := do
  let s ← s.dropKey
  let (text, cursor) ← blockScalar (style = .literal) s.indent s.cursor.next
  return { s.emit (.scalar style (String.ofList text)) with keyAllowed := true, cursor }

def quotedText (s : Scan) (double : Bool) : Option Scan := do
  let s ← s.saveKey
  let c := s.cursor.next
  let (d, cursor) ←
    if double then doubleQuoted {} 0 0 c.mark c.rest else singleQuoted {} c.mark c.rest
  return { s.emit (.scalar .quoted (String.ofList d.text)) with keyAllowed := false, cursor }

def plainText (s : Scan) : Option Scan := do
  let s ← s.saveKey
  let (d, cursor) ← plainScalar s.flow (s.indent + 1).toNat {} false s.mark s.cursor.rest
  return { s.emit (.scalar .plain (String.ofList d.text)) with
    keyAllowed := d.break?.isSome, cursor }

def isIndicator (c : Char) : Bool :=
  c ∈ ['-', '?', ':', ',', '[', ']', '{', '}', '#', '&', '*', '!', '|', '>', '\'', '"', '%',
    '@', '\x60']

def readToken (s : Scan) : Option Scan :=
  match s.cursor.rest with
  | [] => s.endStream
  | c :: rest =>
      let ends := wordEnds rest
      if s.mark.column = 0 ∧ c = '%' then s.directive
      else if s.mark.column = 0 ∧ atDocumentMark (c :: rest) then
        s.documentMark (if c = '-' then .documentStart else .documentEnd)
      else if c = '[' then s.openFlow .flowSequenceStart
      else if c = '{' then s.openFlow .flowMappingStart
      else if c = ']' then s.closeFlow .flowSequenceEnd
      else if c = '}' then s.closeFlow .flowMappingEnd
      else if c = ',' then s.flowEntry
      else if c = '-' ∧ ends then s.blockEntry
      else if c = '?' ∧ (s.flow ∨ ends) then s.explicitKey
      else if c = ':' ∧ (s.flow ∨ ends) then s.colon
      else if c = '*' then s.anchor .alias
      else if c = '&' then s.anchor .anchor
      else if c = '!' then s.tag
      else if c = '|' ∧ ¬ s.flow then s.blockText .literal
      else if c = '>' ∧ ¬ s.flow then s.blockText .folded
      else if c = '\'' then s.quotedText false
      else if c = '"' then s.quotedText true
      else if (¬ isBlank c ∧ ¬ isIndicator c) ∨ c = '-' ∨
          (¬ s.flow ∧ (c = '?' ∨ c = ':')) then
        s.plainText
      else none

def step (s : Scan) : Option Scan := do
  let (keyAllowed, cursor) := toToken s.flow false s.keyAllowed s.mark s.cursor.rest
  let s ← dropStaleKeys { s with keyAllowed, cursor }
  readToken (s.closeBlocks s.mark.column)

def settled (s : Scan) : Nat :=
  let pending := (s.key? :: s.outerKeys).filterMap fun key? => key?.map SimpleKey.position
  pending.foldl min s.tokens.length

/-- The tokens of the text as far as it is YAML; `settled` of them are known to be what they are,
and `fuel` bounds the number of the others. -/
def run : Nat → Nat → Scan → List Token
  | 0, settled, s => s.tokens.take settled
  | fuel + 1, settled, s =>
      match s.step.bind dropStaleKeys with
      | none => s.tokens.take settled
      | some s => if s.ended then s.tokens.take s.settled else run fuel s.settled s

end Scan

def tokensOf (cs : List Char) : List Token :=
  if cs.all isAllowed then
    let cs := unifyBreaks cs
    Scan.run (cs.length + 1) 0 { cursor := ⟨{}, cs⟩ }
  else []

end TouchGesture.Yaml
