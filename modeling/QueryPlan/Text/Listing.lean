/-!
# Lists in running text

Every list that a plan shows is written the same way: the items in order, a comma and a
space between two of them. A row of names, a list of ordinals and a list of quoted names
additionally stand in square brackets.
-/

namespace QueryPlan.Text

/-- The items in order, separated by a comma and a space. -/
def listing (items : List String) : String :=
  ", ".intercalate items

/-- A listing in square brackets. -/
def bracketed (items : List String) : String :=
  "[" ++ listing items ++ "]"

end QueryPlan.Text
