import QueryPlan.Toml.Digits

/-!
# Quoted text in a settings document

Text stands between double quotes, with escapes, or between single quotes, without. With
three quotes on either side it may go over several lines; a line break right after the
opening quotes is not part of it, and up to two quotes may stand right before the closing
ones. The readers take what follows the opening quotes and return the text and what follows
the closing ones.
-/

namespace QueryPlan.Toml

/-- The character may stand in text and comments. Of the controls this is the tab only. -/
def isTextChar (c : Char) : Bool := c == '\t' || (' ' ≤ c && c != '\x7f')

def isBlank (c : Char) : Bool := c == ' ' || c == '\t'

/-- Puts a character in front of what a reader has found. -/
def prepend (c : Char) (found : Option (List Char × List Char)) :
    Option (List Char × List Char) :=
  found.map fun (text, rest) => (c :: text, rest)

/-- The character with the code point written in hexadecimal. -/
def codePoint? (ds : List Char) : Option Char :=
  if ds.all isHexDigit then
    let n := digitsToNat 16 ds
    if n.isValidChar then some (Char.ofNat n) else none
  else none

/-- The character that an escape letter stands for. -/
def escapedChar? : Char → Option Char
  | 'b' => some '\x08'
  | 'e' => some '\x1b'
  | 't' => some '\t'
  | 'n' => some '\n'
  | 'f' => some '\x0c'
  | 'r' => some '\r'
  | '\"' => some '\"'
  | '\\' => some '\\'
  | _ => none

/-- An escape without its backslash: the character, and what follows. -/
def escape? : List Char → Option (Char × List Char)
  | 'x' :: a :: b :: rest => (codePoint? [a, b]).map (·, rest)
  | 'u' :: a :: b :: c :: d :: rest => (codePoint? [a, b, c, d]).map (·, rest)
  | 'U' :: a :: b :: c :: d :: e :: f :: g :: h :: rest =>
    (codePoint? [a, b, c, d, e, f, g, h]).map (·, rest)
  | c :: rest => (escapedChar? c).map (·, rest)
  | [] => none

/-- Text between double quotes on one line. `fuel` bounds the number of characters. -/
def basicText : (fuel : Nat) → List Char → Option (List Char × List Char)
  | 0, _ | _, [] => none
  | fuel + 1, c :: rest =>
    if c == '\"' then some ([], rest)
    else if c == '\\' then
      match escape? rest with
      | some (c, rest) => prepend c (basicText fuel rest)
      | none => none
    else if isTextChar c then prepend c (basicText fuel rest)
    else none

/-- Text between single quotes on one line. -/
def literalText : List Char → Option (List Char × List Char)
  | [] => none
  | c :: rest =>
    if c == '\'' then some ([], rest)
    else if isTextChar c then prepend c (literalText rest)
    else none

/-- What follows a line break, if one comes first. -/
def afterLineBreak? : List Char → Option (List Char)
  | '\n' :: rest | '\r' :: '\n' :: rest => some rest
  | _ => none

/-- What follows the line breaks and blanks that come first. -/
def skipLines : List Char → List Char
  | '\n' :: rest => skipLines rest
  | '\r' :: '\n' :: rest => skipLines rest
  | ' ' :: rest => skipLines rest
  | '\t' :: rest => skipLines rest
  | cs => cs

/-- The closing quotes of text over several lines, up to two more of them being text. -/
def closing? (quote : Char) (cs : List Char) : Option (List Char × List Char) :=
  let quotes := (cs.takeWhile (· == quote)).length
  if quotes < 3 then none
  else
    let extra := min (quotes - 3) 2
    some (List.replicate extra quote, cs.drop (extra + 3))

/-- Text over several lines between double quotes. A backslash at the end of a line takes
the line break and the blanks around it out of the text. -/
def basicLines : (fuel : Nat) → List Char → Option (List Char × List Char)
  | 0, _ => none
  | fuel + 1, cs =>
    match closing? '\"' cs with
    | some found => some found
    | none =>
      match cs with
      | [] => none
      | '\\' :: rest =>
        match afterLineBreak? (rest.dropWhile isBlank) with
        | some rest => basicLines fuel (skipLines rest)
        | none =>
          match escape? rest with
          | some (c, rest) => prepend c (basicLines fuel rest)
          | none => none
      | c :: rest =>
        match afterLineBreak? cs with
        | some rest => prepend '\n' (basicLines fuel rest)
        | none => if isTextChar c then prepend c (basicLines fuel rest) else none

/-- Text over several lines between single quotes. -/
def literalLines : (fuel : Nat) → List Char → Option (List Char × List Char)
  | 0, _ => none
  | fuel + 1, cs =>
    match closing? '\'' cs with
    | some found => some found
    | none =>
      match cs with
      | [] => none
      | c :: rest =>
        match afterLineBreak? cs with
        | some rest => prepend '\n' (literalLines fuel rest)
        | none => if isTextChar c then prepend c (literalLines fuel rest) else none

/-- Quoted text of any of the four sorts, the opening quotes included. -/
def quotedText? (cs : List Char) : Option (String × List Char) :=
  let found :=
    match cs with
    | '\"' :: '\"' :: '\"' :: rest =>
      basicLines (rest.length + 1) ((afterLineBreak? rest).getD rest)
    | '\'' :: '\'' :: '\'' :: rest =>
      literalLines (rest.length + 1) ((afterLineBreak? rest).getD rest)
    | '\"' :: rest => basicText (rest.length + 1) rest
    | '\'' :: rest => literalText rest
    | _ => none
  found.map fun (text, rest) => (String.ofList text, rest)

end QueryPlan.Toml
