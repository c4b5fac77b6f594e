import TouchGesture.Text.Shown

/-! A text between double quotes, with escapes for what a reader could not see. -/

namespace TouchGesture.Text

/-- Quotes and backslashes are escaped, the common controls have a letter, and all else that is not
shown is written by its code point. -/
def quotedChar (c : Char) : List Char :=
  if c = '"' ∨ c = '\\' then ['\\', c]
  else if c = '\t' then ['\\', 't']
  else if c = '\r' then ['\\', 'r']
  else if c = '\n' then ['\\', 'n']
  else if c = Char.ofNat 0 then ['\\', '0']
  else if isShown c then [c]
  else '\\' :: 'u' :: '{' :: (Nat.toDigits 16 c.toNat ++ ['}'])

def quoted (s : String) : String :=
  String.ofList ('"' :: (s.toList.flatMap quotedChar ++ ['"']))

end TouchGesture.Text
