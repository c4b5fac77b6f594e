/-! The characters of a YAML text, and places in it. -/

namespace TouchGesture.Yaml

def isAllowed (c : Char) : Bool :=
  let n := c.toNat
  n = 0x09 || n = 0x0A || n = 0x0D || 0x20 ≤ n && n ≤ 0x7E || n = 0x85 ||
    0xA0 ≤ n && n ≤ 0xFFFD ||
    0x10000 ≤ n

def unifyBreaks : List Char → List Char
  | [] => []
  | '\r' :: '\n' :: rest => '\n' :: unifyBreaks rest
  | c :: rest => (if c = '\r' ∨ c = '\x85' then '\n' else c) :: unifyBreaks rest

def isBlank (c : Char) : Bool := c = ' ' || c = '\t'

def isBreak (c : Char) : Bool := c = '\n' || c = '\u2028' || c = '\u2029'

def wordEnds : List Char → Bool
  | [] => true
  | c :: _ => isBlank c || isBreak c

def isNameChar (c : Char) : Bool := c.isAlphanum || c = '-' || c = '_'

def atDocumentMark : List Char → Bool
  | a :: b :: c :: rest => a = b && b = c && (a = '-' || a = '.') && wordEnds rest
  | _ => false

structure Mark where
  line : Nat := 0
  column : Nat := 0
  index : Nat := 0

namespace Mark

def advance (m : Mark) (n : Nat) : Mark := ⟨m.line, m.column + n, m.index + n⟩

def next (m : Mark) : Mark := m.advance 1

def nextLine (m : Mark) : Mark := ⟨m.line + 1, 0, m.index + 1⟩

end Mark

structure Cursor where
  mark : Mark
  rest : List Char

namespace Cursor

def skip (c : Cursor) (n : Nat) : Cursor := ⟨c.mark.advance n, c.rest.drop n⟩

def next (c : Cursor) : Cursor := c.skip 1

def skipWhile (p : Char → Bool) (c : Cursor) : Cursor := c.skip (c.rest.takeWhile p).length

def skipBreak (c : Cursor) : Cursor :=
  match c.rest with
  | b :: rest => if isBreak b then ⟨c.mark.nextLine, rest⟩ else c
  | [] => c

def finishLine? (c : Cursor) : Option Cursor :=
  let c := c.skipWhile isBlank
  let c := if c.rest.head? = some '#' then c.skipWhile fun ch => !isBreak ch else c
  match c.rest with
  | [] => some c
  | b :: _ => if isBreak b then some c.skipBreak else none

end Cursor

end TouchGesture.Yaml
