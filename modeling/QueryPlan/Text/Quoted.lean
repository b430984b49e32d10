import QueryPlan.Text.HiddenTable

/-!
# Quoted text

Names that a message shows to a person stand between double quotes. A quote, a backslash
and the common control characters are written with a backslash and a letter; every other
character that a reader could not make out is written by its code point in hexadecimal.
A single quote needs no escape between double quotes.
-/

namespace QueryPlan.Text

/-- A character by its code point: a backslash, `u`, and the hexadecimal digits in
braces. -/
def codePointEscape (c : Char) : List Char :=
  '\\' :: 'u' :: '\x7b' :: Nat.toDigits 16 c.toNat ++ ['\x7d']

/-- One character as it stands between double quotes. -/
def escapeChar (c : Char) : List Char :=
  if c == '\x00' then ['\\', '0']
  else if c == '\t' then ['\\', 't']
  else if c == '\r' then ['\\', 'r']
  else if c == '\n' then ['\\', 'n']
  else if c == '\"' then ['\\', '\"']
  else if c == '\\' then ['\\', '\\']
  else if isHidden c then codePointEscape c
  else [c]

/-- A text between double quotes. -/
def quoted (s : String) : String :=
  "\"" ++ String.ofList (s.toList.flatMap escapeChar) ++ "\""

end QueryPlan.Text
