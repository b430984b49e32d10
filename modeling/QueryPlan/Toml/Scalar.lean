import QueryPlan.Toml.Digits
import QueryPlan.Toml.Value

/-!
# Words of a settings document

A value that is neither quoted nor in brackets is one word: a truth value, a number or a
date. The readers here decide what a whole word means.

Digits may be set apart by single underscores between two of them. A decimal number has no
leading zero. An integer must lie between `-2 ^ 127` and `2 ^ 128 - 1`, and a number with a
fraction or an exponent must not exceed the greatest double.
-/

namespace QueryPlan.Toml

/-- The digits of a decimal number without a superfluous zero in front. -/
def decimalRun (cs : List Char) : Option (List Char) := do
  let ds ← digitRun Char.isDigit false cs
  if ds.length > 1 && ds.head? == some '0' then none else some ds

/-- The sign, and what follows it. -/
def splitSign : List Char → Bool × List Char
  | '-' :: rest => (true, rest)
  | '+' :: rest => (false, rest)
  | cs => (false, cs)

/-- An integer of any size. -/
def anyInteger? (cs : List Char) : Option Int :=
  match cs with
  | '0' :: 'x' :: rest => (digitRun isHexDigit false rest).map fun ds => digitsToNat 16 ds
  | '0' :: 'o' :: rest =>
    (digitRun (fun c => '0' ≤ c && c ≤ '7') false rest).map fun ds => digitsToNat 8 ds
  | '0' :: 'b' :: rest =>
    (digitRun (fun c => c == '0' || c == '1') false rest).map fun ds => digitsToNat 2 ds
  | cs => do
    let (negative, size) := splitSign cs
    let ds ← decimalRun size
    let n : Int := digitsToNat 10 ds
    some (if negative then -n else n)

/-- An integer that is not too large. -/
def integer? (cs : List Char) : Option Int := do
  let n ← anyInteger? cs
  if -Nat.pow 2 127 ≤ n && n < Nat.pow 2 128 then some n else none

/-- `digits * 10 ^ exponent` rounds to a double that is finite. A number of more than 400
places before the point is too large in any case, and one with fewer than none is not. -/
def fitsDouble (digits : Nat) (exponent : Int) : Bool :=
  let places : Int := (Nat.toDigits 10 digits).length + exponent
  digits == 0 || places ≤ 0 ||
    (places ≤ 400 &&
      digits * Nat.pow 10 exponent.toNat <
        (Nat.pow 2 1024 - Nat.pow 2 970) * Nat.pow 10 (-exponent).toNat)

/-- The word up to the first character with a property, and what follows that character. -/
def splitAt (p : Char → Bool) (cs : List Char) : List Char × Option (List Char) :=
  match cs.dropWhile fun c => !p c with
  | [] => (cs, none)
  | _ :: rest => (cs.takeWhile fun c => !p c, some rest)

/-- A number with a fraction, an exponent or both. -/
def isFloat (cs : List Char) : Bool :=
  let (_, size) := splitSign cs
  if size == "inf".toList || size == "nan".toList then true
  else
    let (mantissa, exponent) := splitAt (fun c => c == 'e' || c == 'E') size
    let (whole, fraction) := splitAt (· == '.') mantissa
    let digits? : Option (List Char × List Char × Int) := do
      let w ← decimalRun whole
      let f ← match fraction with
        | none => some []
        | some cs => digitRun Char.isDigit false cs
      let e ← match exponent with
        | none => some 0
        | some cs => do
          let (negative, size) := splitSign cs
          let ds ← digitRun Char.isDigit false size
          let n : Int := digitsToNat 10 ds
          some (if negative then -n else n)
      some (w, f, e)
    match digits? with
    | none => false
    | some (w, f, e) =>
      (fraction.isSome || exponent.isSome) &&
        fitsDouble (digitsToNat 10 (w ++ f)) (e - f.length)

/-- Two digits that denote a number in a range, and what follows. -/
def twoDigits (low high : Nat) : List Char → Option (Nat × List Char)
  | a :: b :: rest =>
    if a.isDigit && b.isDigit then
      let n := digitsToNat 10 [a, b]
      if low ≤ n && n ≤ high then some (n, rest) else none
    else none
  | _ => none

def isLeapYear (year : Nat) : Bool :=
  year % 4 == 0 && (year % 100 != 0 || year % 400 == 0)

def daysInMonth (year month : Nat) : Nat :=
  if month == 2 then if isLeapYear year then 29 else 28
  else if [4, 6, 9, 11].contains month then 30
  else 31

/-- A date at the beginning of a word, and what follows. -/
def afterDate (cs : List Char) : Option (List Char) := do
  let (century, cs) ← twoDigits 0 99 cs
  let (year, cs) ← twoDigits 0 99 cs
  let '-' :: cs := cs | none
  let (month, cs) ← twoDigits 1 12 cs
  let '-' :: cs := cs | none
  let (_, cs) ← twoDigits 1 (daysInMonth (century * 100 + year) month) cs
  some cs

/-- Seconds, whole or with a fraction, and what follows. -/
def afterSeconds (cs : List Char) : Option (List Char) := do
  let (_, cs) ← twoDigits 0 60 cs
  match cs with
  | '.' :: d :: rest => if d.isDigit then some (rest.dropWhile Char.isDigit) else none
  | '.' :: [] => none
  | _ => some cs

/-- A time of day at the beginning of a word, with or without seconds, and what follows. -/
def afterTime (cs : List Char) : Option (List Char) := do
  let (_, cs) ← twoDigits 0 23 cs
  let ':' :: cs := cs | none
  let (_, cs) ← twoDigits 0 59 cs
  match cs with
  | ':' :: cs => afterSeconds cs
  | cs => some cs

/-- The offset of a time of day from universal time, as the whole of what is left. -/
def isOffset : List Char → Bool
  | ['Z'] | ['z'] => true
  | '+' :: cs | '-' :: cs =>
    (do
      let (_, cs) ← twoDigits 0 23 cs
      let ':' :: cs := cs | none
      let (_, cs) ← twoDigits 0 59 cs
      some cs) == some []
  | _ => false

/-- A date, a time of day, or a date and a time of day with or without an offset. -/
def isDateTime (cs : List Char) : Bool :=
  match afterDate cs with
  | some [] => true
  | some (c :: rest) =>
    (c == 'T' || c == 't' || c == ' ') &&
      match afterTime rest with
      | some [] => true
      | some offset => isOffset offset
      | none => false
  | none => afterTime cs == some []

/-- What a word means. -/
def wordValue? (cs : List Char) : Option Value :=
  if cs == "true".toList then some (.bool true)
  else if cs == "false".toList then some (.bool false)
  else
    match integer? cs with
    | some n => some (.integer n)
    | none =>
      if isFloat cs then some (.float (String.ofList cs))
      else if isDateTime cs then some (.dateTime (String.ofList cs))
      else none

end QueryPlan.Toml
