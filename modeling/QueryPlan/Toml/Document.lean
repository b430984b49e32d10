import QueryPlan.Toml.Scalar
import QueryPlan.Toml.Text

/-!
# Settings documents

A document is read in two steps. The first splits the text into statements: a value for a
key, or a header that says which table the following keys belong to. The second carries the
statements out, one after the other, and refuses one that contradicts what is there.

Reading a value may mean reading the values inside it. The recursion counts the characters
that are left. Values may be nested eighty deep, and a dotted key may have eighty parts.
-/

namespace QueryPlan.Toml

/-- A dotted key. -/
abbrev Key := List String

/-- One statement of a document. -/
inductive Statement where
  | assign (key : Key) (v : Value)
  /-- The following keys belong to this table. -/
  | header (path : Key)
  /-- The following keys belong to one more table of this header. -/
  | nextHeader (path : Key)

/-- Values may be nested this deep, and a dotted key may have this many parts. -/
def nestingLimit : Nat := 80

def skipBlanks (cs : List Char) : List Char := cs.dropWhile isBlank

/-- Skips blanks, line breaks and comments. A comment may hold text characters only. -/
def skipTrivia : (inComment : Bool) → List Char → Option (List Char)
  | _, [] => some []
  | _, '\n' :: rest => skipTrivia false rest
  | _, '\r' :: '\n' :: rest => skipTrivia false rest
  | true, c :: rest => if isTextChar c then skipTrivia true rest else none
  | false, '#' :: rest => skipTrivia true rest
  | false, ' ' :: rest => skipTrivia false rest
  | false, '\t' :: rest => skipTrivia false rest
  | false, cs => some cs

def isBareKeyChar (c : Char) : Bool :=
  c.isAlphanum || c == '_' || c == '-'

/-- One part of a dotted key, and what follows. -/
def keyPart? (cs : List Char) : Option (String × List Char) :=
  match cs with
  | '\"' :: rest =>
    (basicText (rest.length + 1) rest).map fun (text, rest) => (String.ofList text, rest)
  | '\'' :: rest => (literalText rest).map fun (text, rest) => (String.ofList text, rest)
  | cs =>
    match cs.takeWhile isBareKeyChar with
    | [] => none
    | name => some (String.ofList name, cs.dropWhile isBareKeyChar)

/-- The parts of a dotted key, and what follows them and the blanks behind them. -/
def keyParts? : (fuel : Nat) → List Char → Option (Key × List Char)
  | 0, _ => none
  | fuel + 1, cs => do
    let (part, rest) ← keyPart? (skipBlanks cs)
    match skipBlanks rest with
    | '.' :: rest =>
      let (parts, rest) ← keyParts? fuel rest
      some (part :: parts, rest)
    | rest => some ([part], rest)

/-- A dotted key that does not have too many parts, and what follows it and the blanks
behind it. -/
def key? (cs : List Char) : Option (Key × List Char) := do
  let (key, rest) ← keyParts? (cs.length + 1) cs
  if key.length ≤ nestingLimit then some (key, rest) else none

/-- The characters beside blanks that end a word. -/
def wordEnds : List Char :=
  ['\n', '\r', ',', '[', ']', '\x7b', '\x7d', '#', '=', '\"', '\'']

/-- The character may belong to a word. -/
def isWordChar (c : Char) : Bool := !(isBlank c || wordEnds.contains c)

/-- A value that is one word. A date and a time of day may have one space between them. -/
def word? (cs : List Char) : Option (Value × List Char) :=
  let word := cs.takeWhile isWordChar
  let rest := cs.dropWhile isWordChar
  let (word, rest) :=
    match afterDate word, rest with
    | some [], ' ' :: d :: more =>
      if d.isDigit then
        (word ++ ' ' :: (d :: more).takeWhile isWordChar, (d :: more).dropWhile isWordChar)
      else (word, rest)
    | _, _ => (word, rest)
  (wordValue? word).map (·, rest)

mutual
/-- A value, and what follows. `depth` values are open around it. -/
def value? : (fuel depth : Nat) → List Char → Option (Value × List Char)
  | 0, _, _ => none
  | fuel + 1, depth, cs =>
    match cs with
    | '\"' :: _ | '\'' :: _ => (quotedText? cs).map fun (s, rest) => (.string s, rest)
    | '[' :: rest =>
      if depth < nestingLimit then
        (items? fuel (depth + 1) rest).map fun (vs, rest) => (.array vs, rest)
      else none
    | '\x7b' :: rest =>
      if depth < nestingLimit then
        (members? fuel (depth + 1) [] rest).map fun (m, rest) => (.table .inline m, rest)
      else none
    | cs => word? cs
/-- The items of an array up to its closing bracket. A comma may follow the last item. -/
def items? : (fuel depth : Nat) → List Char → Option (List Value × List Char)
  | 0, _, _ => none
  | fuel + 1, depth, cs => do
    match ← skipTrivia false cs with
    | ']' :: rest => some ([], rest)
    | cs =>
      let (v, rest) ← value? fuel depth cs
      match ← skipTrivia false rest with
      | ',' :: rest =>
        let (vs, rest) ← items? fuel depth rest
        some (v :: vs, rest)
      | ']' :: rest => some ([v], rest)
      | _ => none
/-- The members of a table in braces, added to those found so far, up to the closing
brace. Line breaks and comments may stand wherever blanks may, except inside a dotted key,
and a comma may follow the last member. -/
def members? : (fuel depth : Nat) → Members → List Char → Option (Members × List Char)
  | 0, _, _, _ => none
  | fuel + 1, depth, m, cs => do
    match ← skipTrivia false cs with
    | '\x7d' :: rest => some (m, rest)
    | cs =>
      let (key, rest) ← key? cs
      let '=' :: rest ← skipTrivia false rest | none
      let (v, rest) ← value? fuel depth (← skipTrivia false rest)
      let m ← m.assign v .inline false key
      match ← skipTrivia false rest with
      | ',' :: rest => members? fuel depth m rest
      | '\x7d' :: rest => some (m, rest)
      | _ => none
end

/-- What follows the line, if nothing but blanks and a comment is left on it. -/
def afterLine? (cs : List Char) : Option (List Char) :=
  match skipBlanks cs with
  | [] => some []
  | '#' :: rest =>
    let comment := rest.takeWhile fun c => c != '\n' && c != '\r'
    let rest := rest.dropWhile fun c => c != '\n' && c != '\r'
    if comment.all isTextChar then if rest.isEmpty then some [] else afterLineBreak? rest
    else none
  | rest => afterLineBreak? rest

/-- One statement, and what follows it on the line. -/
def statement? (cs : List Char) : Option (Statement × List Char) :=
  match cs with
  | '[' :: '[' :: rest =>
    match key? rest with
    | some (path, ']' :: ']' :: rest) => some (.nextHeader path, rest)
    | _ => none
  | '[' :: rest =>
    match key? rest with
    | some (path, ']' :: rest) => some (.header path, rest)
    | _ => none
  | cs => do
    let (key, rest) ← key? cs
    let '=' :: rest := rest | none
    let (v, rest) ← value? (cs.length + 1) 0 (skipBlanks rest)
    some (.assign key v, rest)

/-- All statements of a text. -/
def statements? : (fuel : Nat) → List Char → Option (List Statement)
  | 0, _ => none
  | fuel + 1, cs => do
    match ← skipTrivia false cs with
    | [] => some []
    | cs =>
      let (s, rest) ← statement? cs
      let rest ← afterLine? rest
      let more ← statements? fuel rest
      some (s :: more)

/-- A document in the making: what is there, and the table that keys belong to. -/
structure Draft where
  members : Members
  path : Key

/-- Carries one statement out. -/
def Draft.apply? (d : Draft) : Statement → Option Draft
  | .assign key v => do
    let members ← d.members.within (Members.assign v .header false key) d.path
    some { d with members := members }
  | .header path => do
    let name ← path.getLast?
    let members ← d.members.within (Members.openTable name) path.dropLast
    some ⟨members, path⟩
  | .nextHeader path => do
    let name ← path.getLast?
    let members ← d.members.within (Members.openNext name) path.dropLast
    some ⟨members, path⟩

/-- The members of the document that a text describes. A byte order mark in front of the
text is no part of it. -/
def document? (text : String) : Option Members := do
  let cs :=
    match text.toList with
    | '\ufeff' :: rest => rest
    | cs => cs
  let statements ← statements? (cs.length + 1) cs
  let draft ← statements.foldlM Draft.apply? ⟨[], []⟩
  some draft.members

end QueryPlan.Toml
