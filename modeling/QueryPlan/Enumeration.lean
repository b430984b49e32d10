/-!
# Named alternatives

Operator kinds, comparison operators, join types and the like are finite sets of
alternatives, each known by a name. The names appear in messages and in the serialized
form of a plan, so a name must lead back to exactly one alternative. The class asks for
just this: a complete list, and names that do not repeat.
-/

namespace QueryPlan

/-- A finite type whose values have distinct names. -/
class Enumeration (α : Type) where
  /-- Every value, in the order in which they are listed to a reader. -/
  all : List α
  /-- The name of a value. -/
  name : α → String
  /-- No value is missing from the list. -/
  mem_all : ∀ a, a ∈ all
  /-- A name belongs to one value only. -/
  name_injective : ∀ a b, name a = name b → a = b

namespace Enumeration

variable {α : Type} [Enumeration α]

/-- The value with the given name. -/
def ofName? (s : String) : Option α :=
  (all : List α).find? fun a => name a == s

/-- The names of a list of values, in square brackets. -/
def names (as : List α) : List String := as.map name

theorem ofName?_eq_some_iff (s : String) (a : α) : ofName? s = some a ↔ name a = s := by
  constructor
  · intro h
    simpa using List.find?_some h
  · rintro rfl
    have hsome : (ofName? (name a) : Option α).isSome := by
      simpa [ofName?, List.find?_isSome] using ⟨a, mem_all a, rfl⟩
    obtain ⟨b, hb⟩ := Option.isSome_iff_exists.1 hsome
    have hname : name b = name a := by simpa using List.find?_some hb
    rw [hb, name_injective b a hname]

@[simp] theorem ofName?_name (a : α) : ofName? (name a) = some a :=
  (ofName?_eq_some_iff _ _).2 rfl

end Enumeration

end QueryPlan
