/-!
# Digits

Numbers are written in bases two, eight, ten and sixteen, and code points in base sixteen.
-/

namespace QueryPlan.Toml

/-- The digits of a run, without the underscores between them. `afterDigit` says that a
digit stands just before. -/
def digitRun (isDigit : Char → Bool) : (afterDigit : Bool) → List Char → Option (List Char)
  | afterDigit, [] => if afterDigit then some [] else none
  | afterDigit, c :: rest =>
    if c == '_' then if afterDigit then digitRun isDigit false rest else none
    else if isDigit c then (digitRun isDigit true rest).map (c :: ·)
    else none

/-- The value of a hexadecimal digit. -/
def digitValue (c : Char) : Nat :=
  if c.isDigit then c.toNat - '0'.toNat else c.toLower.toNat - 'a'.toNat + 10

def isHexDigit (c : Char) : Bool :=
  c.isDigit || ('a' ≤ c && c ≤ 'f') || ('A' ≤ c && c ≤ 'F')

/-- The number that digits denote in a base. -/
def digitsToNat (base : Nat) (ds : List Char) : Nat :=
  ds.foldl (fun n c => n * base + digitValue c) 0

end QueryPlan.Toml
