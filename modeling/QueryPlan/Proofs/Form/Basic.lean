import Mathlib.Tactic.Common
import QueryPlan.Form.Basic

/-!
# Values that are read back

A value is read back from its stored form if the form can hold it. All texts, truth values and
alternatives can be held, and all integers of a fixed width. Of the ordinals and counts those below
the bound can, and of the doubles those that are finite. No other value is ever lost: a list, a pair
or a record is read back just if all its parts are.

What a record is made of is found again under the names of its fields. A record is read here from
fields of which nothing is known, and what is known about them comes in afterwards. Whoever
evaluates the reading of an ordinal counts up to the bound.
-/

namespace QueryPlan

namespace Data

@[simp] theorem depth_tag (name : String) (contents : Data) :
    (tag name contents).depth = contents.depth + 1 := by
  simp [tag, depth, depthOfMembers]

theorem depth_pos (d : Data) : 0 < d.depth := by
  cases d <;> exact Nat.succ_pos _

end Data

/-- Each member of a list comes back from what is made of it. -/
theorem mapM_map_eq_some_iff {α β : Type} {f : β → Option α} {g : α → β} {as : List α} :
    (as.map g).mapM f = some as ↔ ∀ a ∈ as, f (g a) = some a := by
  induction as with
  | nil => simp
  | cons a as ih =>
      rw [List.map_cons, List.mapM_cons, List.forall_mem_cons, ← ih]
      simp [Option.bind_eq_some_iff]

namespace Storable

variable {α β : Type} [Storable α] [Storable β]

/-- The value is read back from its stored form. -/
def Restored (a : α) : Prop := ofData? (toData a) = some a

/-- With one part a value is read back just if the part is. -/
theorem map_ofData?_eq_some_iff {γ : Type} {f : α → γ} (hf : Function.Injective f) {a : α} :
    (ofData? (toData a)).map f = some (f a) ↔ Restored a := by
  rw [← Option.map_some, (Option.map_injective hf).eq_iff, Restored]

section Lossless

@[simp] theorem ofData?_toData_bool (b : Bool) : ofData? (toData b) = some b := rfl

@[simp] theorem ofData?_toData_string (s : String) : ofData? (toData s) = some s := rfl

@[simp] theorem ofData?_toData_int64 (n : Int64) : ofData? (toData n) = some n := by
  have hlow : Int64.minValue.toInt ≤ n.toInt := Int64.minValue_le_toInt n
  have hhigh : n.toInt ≤ Int64.maxValue.toInt := Int64.toInt_le n
  simp only [toData, ofData?, Data.int?, hlow, hhigh, Option.bind_eq_bind, Option.bind_some,
    decide_true, Bool.and_true, if_true, Int64.ofInt_toInt]

@[simp] theorem ofData?_toData_int32 (n : Int32) : ofData? (toData n) = some n := by
  have hlow : Int32.minValue.toInt ≤ n.toInt := Int32.minValue_le_toInt n
  have hhigh : n.toInt ≤ Int32.maxValue.toInt := Int32.toInt_le n
  simp only [toData, ofData?, Data.int?, hlow, hhigh, Option.bind_eq_bind, Option.bind_some,
    decide_true, Bool.and_true, if_true, Int32.ofInt_toInt]

@[simp] theorem ofData?_toData_enumeration {α : Type} [Enumeration α] (a : α) :
    ofData? (toData a) = some a := by
  simp [toData, ofData?, Data.unitTag?, Data.tagged?]

end Lossless

theorem ofData?_nat (d : Data) : (ofData? d : Option Nat) =
    d.int?.bind fun n => if 0 ≤ n && n < ordinalBound then some n.toNat else none := rfl

theorem int?_toData_nat (n : Nat) : (toData n).int? = some (n : Int) := rfl

theorem restored_nat {n : Nat} : Restored n ↔ n < ordinalBound := by
  rw [Restored, ofData?_nat, int?_toData_nat, Option.bind_some]
  generalize ordinalBound = bound
  simp

theorem restored_double {x : Double} : Restored x ↔ x.isFinite = true := by
  cases h : x.isFinite <;> simp [Restored, toData, ofData?, h, Data.double?]

theorem restored_list {as : List α} : Restored as ↔ ∀ a ∈ as, Restored a :=
  mapM_map_eq_some_iff

theorem restored_pair {p : α × β} : Restored p ↔ Restored p.1 ∧ Restored p.2 := by
  simp [Restored, toData, ofData?, Option.bind_eq_some_iff, Prod.ext_iff]

theorem restored_none : Restored (none : Option α) := rfl

/-- Only null is read as none. -/
theorem ofData?_option {d : Data} (h : d ≠ .null) :
    (ofData? d : Option (Option α)) = (ofData? d).map some := by
  cases d with
  | null => exact absurd rfl h
  | _ => rfl

/-- A value that is there must not be stored as null, or it is taken for none. -/
theorem restored_some {a : α} (h : toData a ≠ .null) : Restored (some a) ↔ Restored a := by
  have hread : (ofData? (toData (some a)) : Option (Option α)) = (ofData? (toData a)).map some :=
    ofData?_option h
  rw [Restored, hread, map_ofData?_eq_some_iff fun _ _ => Option.some.inj]

end Storable

end QueryPlan
