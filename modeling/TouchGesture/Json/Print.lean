import TouchGesture.Json.Basic

/-! Writing JSON, on one line or with an indent. -/

namespace TouchGesture.Json

mutual

def compactChars : Json → List Char
  | .null => ['n', 'u', 'l', 'l']
  | .bool true => ['t', 'r', 'u', 'e']
  | .bool false => ['f', 'a', 'l', 's', 'e']
  | .number n => n.chars
  | .string body => '"' :: (body ++ ['"'])
  | .array [] _ => ['[', ']']
  | .array (item :: items) _ => '[' :: (compactChars item ++ compactItems items)
  | .object [] _ => ['{', '}']
  | .object ((key, item) :: fields) _ =>
      '{' :: (compactChars key ++ ':' :: (compactChars item ++ compactFields fields))
  | .cut => []

def compactItems : List Json → List Char
  | [] => [']']
  | item :: items => ',' :: (compactChars item ++ compactItems items)

def compactFields : List (Json × Json) → List Char
  | [] => ['}']
  | (key, item) :: fields =>
      ',' :: (compactChars key ++ ':' :: (compactChars item ++ compactFields fields))

end

def newline (depth : Nat) : List Char := '\n' :: List.replicate (2 * depth) ' '

mutual

def prettyChars (depth : Nat) : Json → List Char
  | .array (item :: items) _ =>
      '[' :: (newline (depth + 1) ++ prettyChars (depth + 1) item ++ prettyItems depth items)
  | .object ((key, item) :: fields) _ =>
      '{' :: (newline (depth + 1) ++ compactChars key ++ ':' :: ' ' ::
        (prettyChars (depth + 1) item ++ prettyFields depth fields))
  | .array [] _ => ['[', ']']
  | .object [] _ => ['{', '}']
  | .null => compactChars .null
  | .bool b => compactChars (.bool b)
  | .number n => n.chars
  | .string body => compactChars (.string body)
  | .cut => []

def prettyItems (depth : Nat) : List Json → List Char
  | [] => newline depth ++ [']']
  | item :: items =>
      ',' :: (newline (depth + 1) ++ prettyChars (depth + 1) item ++ prettyItems depth items)

def prettyFields (depth : Nat) : List (Json × Json) → List Char
  | [] => newline depth ++ ['}']
  | (key, item) :: fields =>
      ',' :: (newline (depth + 1) ++ compactChars key ++ ':' :: ' ' ::
        (prettyChars (depth + 1) item ++ prettyFields depth fields))

end

def compact (j : Json) : String := String.ofList j.compactChars

def pretty (j : Json) : String := String.ofList (j.prettyChars 0)

end TouchGesture.Json
