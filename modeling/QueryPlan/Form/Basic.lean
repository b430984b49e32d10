import QueryPlan.Form.Data
import QueryPlan.Plan.Build

/-!
# Values with a stored form

A type is storable if its values can be written as data and read back. Reading accepts all
that writing produces, and some data beside: it is guided by the type that is expected.
Numbers are checked against the range of their type.
-/

namespace QueryPlan

/-- Values that can be stored. -/
class Storable (α : Type) where
  toData : α → Data
  ofData? : Data → Option α

export Storable (toData ofData?)

namespace Storable

instance : Storable Bool := ⟨.bool, Data.bool?⟩

instance : Storable String := ⟨.text, Data.text?⟩

/-- Ordinals and counts: the integers from zero up to the bound. -/
instance : Storable Nat where
  toData n := .int n
  ofData? d := do
    let n ← d.int?
    if 0 ≤ n && n < ordinalBound then some n.toNat else none

instance : Storable Int64 where
  toData n := .int n.toInt
  ofData? d := do
    let n ← d.int?
    if Int64.minValue.toInt ≤ n && n ≤ Int64.maxValue.toInt then some (Int64.ofInt n) else none

instance : Storable Int32 where
  toData n := .int n.toInt
  ofData? d := do
    let n ← d.int?
    if Int32.minValue.toInt ≤ n && n ≤ Int32.maxValue.toInt then some (Int32.ofInt n) else none

/-- A double that is not finite has no stored form of its own and is written as null, which
is not read back. -/
instance : Storable Double where
  toData x := if x.isFinite then .float x else .null
  ofData? := Data.double?

/-- Alternatives without contents are written by name. -/
instance (priority := low) {α : Type} [Enumeration α] : Storable α where
  toData a := .text (Enumeration.name a)
  ofData? d := d.unitTag?.bind Enumeration.ofName?

instance {α : Type} [Storable α] : Storable (List α) where
  toData as := .array (as.map toData)
  ofData? d := d.array?.bind fun items => items.mapM ofData?

instance {α β : Type} [Storable α] [Storable β] : Storable (α × β) where
  toData p := .array [toData p.1, toData p.2]
  ofData?
    | .array [a, b] => do
      let a ← ofData? a
      let b ← ofData? b
      some (a, b)
    | _ => none

instance {α : Type} [Storable α] : Storable (Option α) where
  toData
    | none => .null
    | some a => toData a
  ofData?
    | .null => some none
    | d => (ofData? d).map some

/-- A field that a record must have. -/
def requiredField {α : Type} [Storable α] (field : Option Data) : Option α :=
  field.bind ofData?

/-- A field that a record may lack; then it has no value. -/
def optionalField {α : Type} [Storable α] : Option Data → Option (Option α)
  | none => some none
  | some d => ofData? d

end Storable

end QueryPlan
