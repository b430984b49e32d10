/-!
# Values of a settings document

A TOML document is a table of values. A table remembers how it came about, because that
decides what may still be added to it: nothing is added to a table written in braces, a
header may take up a table that only other headers have implied, and dotted keys add to
tables that dotted keys have made.
-/

namespace QueryPlan.Toml

/-- How a table came about. -/
inductive Origin where
  /-- It lies on the way to the table of a header. -/
  | implied
  /-- It lies on the way of a dotted key. -/
  | dotted
  /-- It is the document itself or has a header. -/
  | header
  /-- It is written in braces. -/
  | inline
  deriving DecidableEq

/-- A value. Numbers with a fraction and dates are kept as they are written. -/
inductive Value where
  | bool (b : Bool)
  | integer (n : Int)
  | float (text : String)
  | dateTime (text : String)
  | string (s : String)
  | array (items : List Value)
  | table (origin : Origin) (members : List (String × Value))
  /-- Tables that share one header, in order. -/
  | tables (items : List Value)

/-- The members of a table in the order in which they were added. -/
abbrev Members := List (String × Value)

namespace Members

def lookup (m : Members) (key : String) : Option Value :=
  (m.find? fun e => e.1 == key).map Prod.snd

/-- The members with a new one at the end. -/
def append (m : Members) (key : String) (v : Value) : Members := m ++ [(key, v)]

/-- The members with another value for a key. -/
def replace (m : Members) (key : String) (v : Value) : Members :=
  m.map fun e => if e.1 == key then (key, v) else e

/-- Gives a value to a dotted key, seen from a table of the given origin. The tables on the
way are those of earlier dotted keys, are only implied, or are made now; where several
tables share a header, the last of them is on the way. The table that takes the value must
have been made by dotted keys, exactly if the key led there through dots. -/
def assign (v : Value) (origin : Origin) (viaDots : Bool) :
    (key : List String) → Members → Option Members
  | [], _ => none
  | [key], m =>
    if (origin == .dotted) == viaDots && (m.lookup key).isNone then some (m.append key v)
    else none
  | key :: rest, m =>
    match m.lookup key with
    | none => (assign v .dotted true rest []).map fun inner => m.append key (.table .dotted inner)
    | some (.table o inner) =>
      if o == .dotted || o == .implied then
        (assign v o true rest inner).map fun inner' => m.replace key (.table o inner')
      else none
    | some (.tables items) =>
      match items.getLast? with
      | some (.table o inner) =>
        (assign v o true rest inner).map fun inner' =>
          m.replace key (.tables (items.dropLast ++ [.table o inner']))
      | _ => none
    | some _ => none

/-- Works on the table that a header path leads to. Missing tables on the way are implied;
where several tables share a header, the last of them is meant. -/
def within (f : Members → Option Members) : (path : List String) → Members → Option Members
  | [], m => f m
  | key :: rest, m =>
    match m.lookup key with
    | none => (within f rest []).map fun inner => m.append key (.table .implied inner)
    | some (.table .inline _) => none
    | some (.table o inner) =>
      (within f rest inner).map fun inner' => m.replace key (.table o inner')
    | some (.tables items) =>
      match items.getLast? with
      | some (.table o inner) =>
        (within f rest inner).map fun inner' =>
          m.replace key (.tables (items.dropLast ++ [.table o inner']))
      | _ => none
    | some _ => none

/-- Opens the table of a header: a new one, or one that was only implied. -/
def openTable (key : String) (m : Members) : Option Members :=
  match m.lookup key with
  | none => some (m.append key (.table .header []))
  | some (.table .implied inner) => some (m.replace key (.table .header inner))
  | some _ => none

/-- Opens one more table of a header that several tables share. -/
def openNext (key : String) (m : Members) : Option Members :=
  match m.lookup key with
  | none => some (m.append key (.tables [.table .header []]))
  | some (.tables items) => some (m.replace key (.tables (items ++ [.table .header []])))
  | some _ => none

end Members

end QueryPlan.Toml
