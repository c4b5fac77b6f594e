import TouchGesture.Json.Basic
import TouchGesture.Text.Hex

/-! Reading a JSON text, as far as it is one. -/

namespace TouchGesture.Json

open Text (hexDigit?)

def isBlank (c : Char) : Bool := c = ' ' || c = '\n' || c = '\t' || c = '\r'

def skipBlanks (cs : List Char) : List Char := cs.dropWhile isBlank

def hex4? (a b c d : Char) : Option Nat := do
  return (((← hexDigit? a) * 16 + (← hexDigit? b)) * 16 + (← hexDigit? c)) * 16 +
    (← hexDigit? d)

def escape? : Char → Option Char
  | '"' => some '"'
  | '\\' => some '\\'
  | '/' => some '/'
  | 'b' => some '\x08'
  | 'f' => some '\x0c'
  | 'n' => some '\n'
  | 'r' => some '\r'
  | 't' => some '\t'
  | _ => none

/-- The body of a string up to its closing quote, and the text after it. No control character stands
in it, and every escape is well formed. -/
def body? : List Char → Option (List Char × List Char)
  | [] => none
  | '"' :: rest => some ([], rest)
  | '\\' :: 'u' :: a :: b :: c :: d :: rest =>
      if (hex4? a b c d).isSome then
        (body? rest).map fun (body, rest) => ('\\' :: 'u' :: a :: b :: c :: d :: body, rest)
      else none
  | '\\' :: c :: rest =>
      if (escape? c).isSome then
        (body? rest).map fun (body, rest) => ('\\' :: c :: body, rest)
      else none
  | c :: rest =>
      if c.toNat < 0x20 ∨ c = '\\' then none
      else (body? rest).map fun (body, rest) => (c :: body, rest)

/-- The characters that a string body stands for. Two halves of a pair make one character; a half
alone stands for nothing. -/
def unescape? : List Char → Option (List Char)
  | [] => some []
  | '\\' :: 'u' :: a :: b :: c :: d :: rest =>
      match hex4? a b c d with
      | none => none
      | some n =>
          if 0xDC00 ≤ n ∧ n ≤ 0xDFFF then none
          else if 0xD800 ≤ n ∧ n ≤ 0xDBFF then
            match rest with
            | '\\' :: 'u' :: a :: b :: c :: d :: rest =>
                match hex4? a b c d with
                | none => none
                | some m =>
                    if 0xDC00 ≤ m ∧ m ≤ 0xDFFF then
                      (unescape? rest).map fun cs =>
                        Char.ofNat (0x10000 + (n - 0xD800) * 0x400 + (m - 0xDC00)) :: cs
                    else none
            | _ => none
          else (unescape? rest).map fun cs => Char.ofNat n :: cs
  | '\\' :: c :: rest =>
      match escape? c with
      | none => none
      | some e => (unescape? rest).map fun cs => e :: cs
  | c :: rest => (unescape? rest).map fun cs => c :: cs

def word (v : Json) (letters cs : List Char) : Json × Option (List Char) :=
  if letters.isPrefixOf cs then (v, some (cs.drop letters.length)) else (.cut, none)

mutual

def value : Nat → List Char → Json × Option (List Char)
  | 0, _ => (.cut, none)
  | fuel + 1, cs =>
      match skipBlanks cs with
      | 'n' :: rest => word .null ['u', 'l', 'l'] rest
      | 't' :: rest => word (.bool true) ['r', 'u', 'e'] rest
      | 'f' :: rest => word (.bool false) ['a', 'l', 's', 'e'] rest
      | '"' :: rest =>
          match body? rest with
          | some (body, rest) => (.string body, some rest)
          | none => (.cut, none)
      | '[' :: rest =>
          match skipBlanks rest with
          | ']' :: rest => (.array [] true, some rest)
          | rest =>
              let (items, rest) := items fuel rest
              (.array items rest.isSome, rest)
      | '{' :: rest =>
          match skipBlanks rest with
          | '}' :: rest => (.object [] true, some rest)
          | rest =>
              let (fields, rest) := fields fuel rest
              (.object fields rest.isSome, rest)
      | rest =>
          match Numeral.lex? rest with
          | some (n, rest) => (.number n, some rest)
          | none => (.cut, none)

def items : Nat → List Char → List Json × Option (List Char)
  | 0, _ => ([], none)
  | fuel + 1, cs =>
      match value fuel cs with
      | (item, none) => ([item], none)
      | (item, some rest) =>
          match skipBlanks rest with
          | ']' :: rest => ([item], some rest)
          | ',' :: rest =>
              let (more, rest) := items fuel rest
              (item :: more, rest)
          | _ => ([item], none)

def fields : Nat → List Char → List (Json × Json) × Option (List Char)
  | 0, _ => ([], none)
  | fuel + 1, cs =>
      match value fuel cs with
      | (.string key, some rest) =>
          match skipBlanks rest with
          | ':' :: rest =>
              match value fuel rest with
              | (item, none) => ([(.string key, item)], none)
              | (item, some rest) =>
                  match skipBlanks rest with
                  | '}' :: rest => ([(.string key, item)], some rest)
                  | ',' :: rest =>
                      let (more, rest) := fields fuel rest
                      ((.string key, item) :: more, rest)
                  | _ => ([(.string key, item)], none)
          | _ => ([(.string key, .cut)], none)
      | (key, _) => ([(key, .cut)], none)

end

def ofText (s : String) : Json × Bool :=
  let cs := s.toList
  match value (2 * cs.length + 2) cs with
  | (v, none) => (v, false)
  | (v, some rest) => (v, (skipBlanks rest).isEmpty)

end TouchGesture.Json
