import QueryPlan.Text.Lowercase

/-!
# Field names that differ by more than case

Two field names are alike when their lower-case forms are equal. A row must not carry two
names that are alike, so names taken from several places are disambiguated: going from
left to right, a name that is like an earlier chosen one gets a decimal number appended.

The number has to avoid two sets: the names already chosen, and the given names that are
still waiting for their turn. In `c1, c1, c10` the second field becomes `c11`, because
`c10` belongs to the third. Every number gives a different candidate, so among one more
candidates than there are names in the way one is free, and the search is bounded by that.
-/

namespace QueryPlan.Names

/-- The form in which names are compared. -/
def fold (name : String) : String := Text.lowercase name

/-- No two of the names are alike. -/
def distinct (names : List String) : Bool := decide (names.map fold).Nodup

/-- The name with a number appended. -/
def numbered (name : String) (k : Nat) : String := name ++ toString k

/-- The least number that makes the name unlike every name in the way. -/
def freeNumber? (inTheWay : List String) (name : String) : Option Nat :=
  (List.range (inTheWay.length + 1)).find? fun k => !inTheWay.contains (fold (numbered name k))

/-- The name chosen for one field, from the folded names given for all fields and the
folded names chosen so far. -/
def choose (given chosen : List String) (name : String) : String :=
  if chosen.contains (fold name) then
    match freeNumber? (given ++ chosen) name with
    | some k => numbered name k
    | none => name
  else name

/-- Chooses names for the remaining fields. -/
def disambiguateFrom (given chosen : List String) : List String → List String
  | [] => []
  | name :: rest =>
    let picked := choose given chosen name
    picked :: disambiguateFrom given (fold picked :: chosen) rest

/-- The names with alike ones told apart by a number. -/
def disambiguate (names : List String) : List String :=
  disambiguateFrom (names.map fold) [] names

theorem distinct_iff (names : List String) :
    distinct names = true ↔ (names.map fold).Nodup := by
  simp [distinct]

@[simp] theorem disambiguate_nil : disambiguate [] = [] := rfl

@[simp] theorem length_disambiguateFrom (given chosen names : List String) :
    (disambiguateFrom given chosen names).length = names.length := by
  induction names generalizing chosen with
  | nil => rfl
  | cons name rest ih => simp [disambiguateFrom, ih]

@[simp] theorem length_disambiguate (names : List String) :
    (disambiguate names).length = names.length := by
  simp [disambiguate]

end QueryPlan.Names
