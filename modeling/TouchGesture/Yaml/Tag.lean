import TouchGesture.Text.Hex
import TouchGesture.Yaml.Place

/-! Tags, which say what a node is, and the handles that abbreviate them. -/

namespace TouchGesture.Yaml

structure Tag where
  octets : List UInt8
  deriving DecidableEq, Repr

namespace Tag

def ofAscii (cs : List Char) : Tag := ⟨cs.map Char.toUInt8⟩

def core (name : String) : Tag := ofAscii ("tag:yaml.org,2002:".toList ++ name.toList)

def isLocal (t : Tag) : Bool := t.octets.head? = some '!'.toUInt8

def append (a b : Tag) : Tag := ⟨a.octets ++ b.octets⟩

instance : Append Tag := ⟨append⟩

def following? (octet : Nat) : Option Nat :=
  if octet < 0x80 then some 0
  else if octet < 0xC0 then none
  else if octet < 0xE0 then some 1
  else if octet < 0xF0 then some 2
  else if octet < 0xF8 then some 3
  else none

/-- The octets that characters write. A percent sign and two hexadecimal digits stand for one octet,
and the octets of a character stand together; `pending` of them are still to come. -/
def octets? (pending : Nat) : List Char → Option (List UInt8)
  | [] => if pending = 0 then some [] else none
  | '%' :: a :: b :: rest => do
      let octet := (← Text.hexDigit? a) * 16 + (← Text.hexDigit? b)
      let pending ←
        if pending = 0 then following? octet
        else if 0x80 ≤ octet ∧ octet < 0xC0 then some (pending - 1)
        else none
      return UInt8.ofNat octet :: (← octets? pending rest)
  | c :: rest => do
      if c = '%' ∨ pending ≠ 0 then none
      return c.toUInt8 :: (← octets? 0 rest)

def ofChars? (cs : List Char) : Option Tag :=
  (octets? 0 cs).map fun octets => ⟨octets.takeWhile (· ≠ 0)⟩

def isTagChar (c : Char) : Bool :=
  isNameChar c ||
    c ∈ [';', '/', '?', ':', '@', '&', '=', '+', '$', '.', '!', '~', '*', '\'', '(', ')', '%']

def body? (head : List Char) (verbatim : Bool) (c : Cursor) : Option (Tag × Cursor) := do
  let text := c.rest.takeWhile fun ch =>
    isTagChar ch || verbatim && (ch = ',' || ch = '[' || ch = ']')
  if head.isEmpty ∧ text.isEmpty then none
  return (← ofChars? (head.drop 1 ++ text), c.skip text.length)

def handle (c : Cursor) : List Char × Cursor :=
  let c := c.next
  let name := c.rest.takeWhile isNameChar
  match (c.rest.drop name.length) with
  | '!' :: _ => ('!' :: (name ++ ['!']), c.skip (name.length + 1))
  | _ => ('!' :: name, c.skip name.length)

def ofCursor? (c : Cursor) : Option (String × Tag × Cursor) := do
  match c.rest with
  | _ :: '<' :: _ =>
      let (tag, c) ← body? [] true (c.skip 2)
      if c.rest.head? ≠ some '>' then none
      return ("", tag, c.next)
  | _ =>
      let (handle, c) := handle c
      if 1 < handle.length ∧ handle.getLast? = some '!' then
        let (tag, c) ← body? [] false c
        return (String.ofList handle, tag, c)
      else
        let (tag, c) ← body? handle false c
        return if tag.octets.isEmpty then ("", ofAscii ['!'], c) else ("!", tag, c)

def definition? (c : Cursor) : Option (String × Tag × Cursor) := do
  if c.rest.head? ≠ some '!' then none
  let (handle, c) := handle c
  if handle.getLast? ≠ some '!' then none
  if !(c.rest.head?.any isBlank) then none
  let (tag, c) ← body? [] true (c.skipWhile isBlank)
  if !wordEnds c.rest then none
  return (String.ofList handle, tag, c)

end Tag

abbrev Handles := List (String × Tag)

namespace Handles

def standard : Handles := [("!", .ofAscii ['!']), ("!!", .core "")]

def resolve? (handles : Handles) (handle : String) (suffix : Tag) : Option Tag :=
  if handle = "" then some suffix else (handles.lookup handle).map (· ++ suffix)

end Handles

end TouchGesture.Yaml
