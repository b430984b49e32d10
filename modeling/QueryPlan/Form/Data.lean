import QueryPlan.Number.Double

/-!
# Stored data

Plans and their parts are stored as trees of plain data. A number is an integer or a
double, and the two are kept apart, because an ordinal can be stored only as an integer.
The members of an object have an order, but nothing depends on it.

The accessors at the end are the conventions by which alternatives and records are stored.
An alternative without contents is its name, one with contents is an object whose only
member has that name. A record is an object with a member for each of its fields, or an
array with an item for each of its fields, in order.
-/

namespace QueryPlan

/-- A tree of plain data. -/
inductive Data where
  | null
  | bool (value : Bool)
  | int (value : Int)
  | float (value : Double)
  | text (value : String)
  | array (items : List Data)
  | object (members : List (String × Data))
  deriving Inhabited

namespace Data

mutual
/-- The number of levels of a tree. -/
def depth : Data → Nat
  | .array items => depthOfItems items + 1
  | .object members => depthOfMembers members + 1
  | _ => 1
/-- The number of levels of the deepest item. -/
def depthOfItems : List Data → Nat
  | [] => 0
  | d :: rest => max d.depth (depthOfItems rest)
/-- The number of levels of the deepest member. -/
def depthOfMembers : List (String × Data) → Nat
  | [] => 0
  | (_, d) :: rest => max d.depth (depthOfMembers rest)
end

def bool? : Data → Option Bool
  | .bool b => some b
  | _ => none

def text? : Data → Option String
  | .text s => some s
  | _ => none

/-- The integer. A double is none, even if its value is a whole number. -/
def int? : Data → Option Int
  | .int n => some n
  | _ => none

/-- The number as a double, an integer by the nearest double. -/
def double? : Data → Option Double
  | .float x => some x
  | .int n => some (Double.ofInt n)
  | _ => none

def array? : Data → Option (List Data)
  | .array items => some items
  | _ => none

/-- The member of an object with a name. -/
def lookup (members : List (String × Data)) (name : String) : Option Data :=
  (members.find? fun m => m.1 == name).map Prod.snd

/-- The name of an alternative, and its contents if there are any. -/
def tagged? : Data → Option (String × Option Data)
  | .text tag => some (tag, none)
  | .object [(tag, contents)] => some (tag, some contents)
  | _ => none

/-- The name of an alternative without contents. Contents that are null count as none. -/
def unitTag? (d : Data) : Option String :=
  match d.tagged? with
  | some (tag, none) | some (tag, some .null) => some tag
  | _ => none

/-- The fields of a record that must be an object. Members that the record does not have are
passed over. -/
def members? (names : List String) : Data → Option (List (Option Data))
  | .object members => some (names.map (lookup members))
  | _ => none

/-- The fields of a record, which is an object or an array with exactly one item per
field. -/
def fields? (names : List String) : Data → Option (List (Option Data))
  | .array items => if items.length = names.length then some (items.map some) else none
  | d => d.members? names

/-- An alternative with contents. -/
def tag (name : String) (contents : Data) : Data := .object [(name, contents)]

end Data

end QueryPlan
