import TouchGesture.Text.Hex
import TouchGesture.Yaml.Place

/-! The texts of scalars: plain, in quotes, and in blocks. -/

namespace TouchGesture.Yaml

inductive Style where
  | plain
  | quoted
  | literal
  | folded
  deriving DecidableEq, Repr

/-- A text under way, and the blanks and line breaks since its last character. The first break is
kept apart from further ones; it is empty where an escape has swallowed it. -/
structure Draft where
  text : List Char := []
  blanks : List Char := []
  break? : Option (List Char) := none
  moreBreaks : List Char := []

namespace Draft

def addBlank (d : Draft) (c : Char) : Draft :=
  if d.break?.isSome then d else { d with blanks := d.blanks ++ [c] }

def addBreak (d : Draft) (c : Char) : Draft :=
  if d.break?.isSome then { d with moreBreaks := d.moreBreaks ++ [c] }
  else { d with blanks := [], break? := some [c] }

def joined (d : Draft) : List Char :=
  match d.break? with
  | none => d.text ++ d.blanks
  | some first =>
      if first = ['\n'] then d.text ++ (if d.moreBreaks.isEmpty then [' '] else d.moreBreaks)
      else d.text ++ first ++ d.moreBreaks

def push (d : Draft) (c : Char) : Draft := { text := d.joined ++ [c] }

end Draft

def isFlowIndicator (c : Char) : Bool := c = ',' || c = '[' || c = ']' || c = '{' || c = '}'

def splitsColon : List Char → Bool
  | c :: _ => isFlowIndicator c || c = '?'
  | [] => false

def plainScalar (flow : Bool) (indent : Nat) (d : Draft) (afterBlank : Bool) (m : Mark) :
    List Char → Option (Draft × Cursor)
  | [] => some (d, ⟨m, []⟩)
  | c :: rest =>
      if isBlank c then
        if c = '\t' ∧ d.break?.isSome ∧ m.column < indent then none
        else plainScalar flow indent (d.addBlank c) true m.next rest
      else if isBreak c then plainScalar flow indent (d.addBreak c) true m.nextLine rest
      else if afterBlank ∧ (c = '#' ∨ (¬ flow ∧ m.column < indent) ∨
          (m.column = 0 ∧ atDocumentMark (c :: rest))) then
        some (d, ⟨m, c :: rest⟩)
      else if flow ∧ c = ':' ∧ splitsColon rest then none
      else if (c = ':' ∧ wordEnds rest) ∨ (flow ∧ isFlowIndicator c) then
        some (d, ⟨m, c :: rest⟩)
      else plainScalar flow indent (d.push c) false m.next rest

def singleQuoted (d : Draft) (m : Mark) : List Char → Option (Draft × Cursor)
  | [] => none
  | '\'' :: '\'' :: rest => singleQuoted (d.push '\'') (m.advance 2) rest
  | c :: rest =>
      if isBlank c then singleQuoted (d.addBlank c) m.next rest
      else if isBreak c then singleQuoted (d.addBreak c) m.nextLine rest
      else if m.column = 0 ∧ atDocumentMark (c :: rest) then none
      else if c = '\'' then some ({ text := d.joined }, ⟨m.next, rest⟩)
      else singleQuoted (d.push c) m.next rest

def escape? : Char → Option Char
  | '0' => some (Char.ofNat 0)
  | 'a' => some '\x07'
  | 'b' => some '\x08'
  | 't' | '\t' => some '\t'
  | 'n' => some '\n'
  | 'v' => some '\x0b'
  | 'f' => some '\x0c'
  | 'r' => some '\r'
  | 'e' => some '\x1b'
  | ' ' => some ' '
  | '"' => some '"'
  | '/' => some '/'
  | '\\' => some '\\'
  | 'N' => some '\x85'
  | '_' => some '\xa0'
  | 'L' => some '\u2028'
  | 'P' => some '\u2029'
  | _ => none

def escapeDigits? : Char → Option Nat
  | 'x' => some 2
  | 'u' => some 4
  | 'U' => some 8
  | _ => none

/-- Reads a scalar in double quotes after the opening quote. Inside an escape, `digits` are still to
come and `code` is the number so far. -/
def doubleQuoted (d : Draft) (digits code : Nat) (m : Mark) : List Char → Option (Draft × Cursor)
  | [] => none
  | '\\' :: c :: rest =>
      if digits ≠ 0 then none
      else if isBreak c then
        doubleQuoted { text := d.joined, break? := some [] } 0 0 m.next.nextLine rest
      else
        match escape? c, escapeDigits? c with
        | some e, _ => doubleQuoted (d.push e) 0 0 (m.advance 2) rest
        | none, some n => doubleQuoted d n 0 (m.advance 2) rest
        | none, none => none
  | c :: rest =>
      if digits ≠ 0 then
        match Text.hexDigit? c with
        | none => none
        | some h =>
            let code := code * 16 + h
            if 1 < digits then doubleQuoted d (digits - 1) code m.next rest
            else if code.isValidChar then doubleQuoted (d.push (Char.ofNat code)) 0 0 m.next rest
            else none
      else if isBlank c then doubleQuoted (d.addBlank c) 0 0 m.next rest
      else if isBreak c then doubleQuoted (d.addBreak c) 0 0 m.nextLine rest
      else if m.column = 0 ∧ atDocumentMark (c :: rest) then none
      else if c = '"' then some ({ text := d.joined }, ⟨m.next, rest⟩)
      else doubleQuoted (d.push c) 0 0 m.next rest

/-- Skips the indentation of a block, as deep as it is known to be, and empty lines. Gives the
breaks of those lines, and the deepest indentation seen. A tab may not take part in it. -/
def blockIndentation (indent deepest : Nat) (breaks : List Char) (m : Mark) :
    List Char → Option (Nat × List Char × Cursor)
  | [] => some (deepest, breaks, ⟨m, []⟩)
  | c :: rest =>
      let inside := indent = 0 ∨ m.column < indent
      if inside ∧ c = ' ' then
        blockIndentation indent (max deepest (m.column + 1)) breaks m.next rest
      else if inside ∧ c = '\t' then none
      else if isBreak c then blockIndentation indent deepest (breaks ++ [c]) m.nextLine rest
      else some (deepest, breaks, ⟨m, c :: rest⟩)

structure Block where
  text : List Char := []
  lastBreak : List Char := []
  emptyBreaks : List Char := []
  startsBlank : Bool := false

def Block.joined (b : Block) (literal nextStartsBlank : Bool) : List Char :=
  if !literal && b.lastBreak = ['\n'] && !b.startsBlank && !nextStartsBlank then
    b.text ++ (if b.emptyBreaks.isEmpty then [' '] else b.emptyBreaks)
  else b.text ++ b.lastBreak ++ b.emptyBreaks

def blockLines (literal : Bool) (indent : Nat) :
    Nat → Block → Cursor → Option (Block × Cursor)
  | 0, b, c => some (b, c)
  | fuel + 1, b, c =>
      match c.rest with
      | [] => some (b, c)
      | first :: _ =>
          if c.mark.column ≠ indent then some (b, c)
          else
            let text := b.joined literal (isBlank first)
            let line := c.rest.takeWhile fun ch => !isBreak ch
            let c := c.skip line.length
            let lastBreak := c.rest.take 1
            let c := c.skipBreak
            match blockIndentation indent 0 [] c.mark c.rest with
            | none => none
            | some (_, emptyBreaks, c) =>
                blockLines literal indent fuel
                  ⟨text ++ line, lastBreak, emptyBreaks, isBlank first⟩ c

inductive Chomp where
  | strip
  | clip
  | keep

/-- The sign and the digit after the start of a block, in either order. The digit is not zero. -/
def blockHeader? (c : Cursor) : Option (Chomp × Nat × Cursor) :=
  let sign (c : Cursor) : Chomp × Cursor :=
    match c.rest with
    | '+' :: _ => (.keep, c.next)
    | '-' :: _ => (.strip, c.next)
    | _ => (.clip, c)
  let digit? (c : Cursor) : Option (Nat × Cursor) :=
    match c.rest with
    | ch :: _ =>
        if ch = '0' then none
        else if ch.isDigit then some (ch.toNat - '0'.toNat, c.next)
        else some (0, c)
    | [] => some (0, c)
  match sign c with
  | (.clip, _) => do
      let (n, c) ← digit? c
      if n = 0 then return (.clip, 0, c)
      let (chomp, c) := sign c
      return (chomp, n, c)
  | (chomp, c) => do
      let (n, c) ← digit? c
      return (chomp, n, c)

def blockScalar (literal : Bool) (outer : Int) (c : Cursor) : Option (List Char × Cursor) := do
  let (chomp, extra, c) ← blockHeader? c
  let c ← c.finishLine?
  let indent := if extra = 0 then 0 else (max outer 0).toNat + extra
  let (deepest, emptyBreaks, c) ← blockIndentation indent 0 [] c.mark c.rest
  let indent := if indent = 0 then max deepest (max (outer + 1).toNat 1) else indent
  let (b, c) ← blockLines literal indent c.rest.length { emptyBreaks } c
  let text := match chomp with
    | .strip => b.text
    | .clip => b.text ++ b.lastBreak
    | .keep => b.text ++ b.lastBreak ++ b.emptyBreaks
  return (text, c)

end TouchGesture.Yaml
