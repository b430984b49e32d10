import QueryPlan.Text.CaseTable

/-!
# Full lower-casing

Names are compared without regard to case, and that means their lower-case forms are
compared as whole texts. Lower-casing a text is not done character by character in two
places: the capital dotted I becomes two characters, and the capital sigma becomes the
final form `ς` at the end of a word and `σ` elsewhere.

A capital sigma ends a word when the nearest character before it that is not transparent
is a letter with case, and the nearest one after it is not. The walk carries the first
half of this condition along as a flag, so the recursion is on the remaining characters
alone.
-/

namespace QueryPlan.Text

/-- The lower-case form of a character outside any word: the final sigma is not decided
here. -/
def lowerChar (c : Char) : List Char :=
  if c == 'İ' then ['i', '\u0307']
  else match lowerRuns.findSome? fun run => run.lower? c.toNat with
    | some n => [Char.ofNat n]
    | none => [c]

/-- A letter with case follows, transparent characters not counted. -/
def letterFollows (s : List Char) : Bool :=
  match s.dropWhile isCaseIgnorable with
  | [] => false
  | c :: _ => isCased c

/-- Lower-cases the rest of a text. `inWord` says that the nearest character before the
rest that is not transparent is a letter with case. -/
def lowerFrom (inWord : Bool) : List Char → List Char
  | [] => []
  | c :: rest =>
    let here :=
      if c == 'Σ' then [if inWord && !letterFollows rest then 'ς' else 'σ'] else lowerChar c
    here ++ lowerFrom (if isCaseIgnorable c then inWord else isCased c) rest

/-- The lower-case form of a text. -/
def lowercase (s : String) : String :=
  String.ofList (lowerFrom false s.toList)

@[simp] theorem lowerFrom_nil (inWord : Bool) : lowerFrom inWord [] = [] := rfl

theorem lowerFrom_cons_of_ne {c : Char} (h : c ≠ 'Σ') (inWord : Bool) (rest : List Char) :
    lowerFrom inWord (c :: rest) =
      lowerChar c ++ lowerFrom (if isCaseIgnorable c then inWord else isCased c) rest := by
  simp [lowerFrom, h]

end QueryPlan.Text
