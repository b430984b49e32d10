import QueryPlan.Enumeration
import QueryPlan.Number.Shortest

/-!
# Types and constants

The logical types of columns and the constants that may stand in an expression. A type
has two names: the one by which it is stored, and the one a person reads in a schema.

Two constants are the same when they are of one kind and hold the same value. On doubles
this is `Double.same`, so it is coarser than equality of representations; everything that
compares or stores expressions has to respect it.
-/

namespace QueryPlan

/-- Logical type of a column or of the value of an expression. -/
inductive DataType where
  | null
  | boolean
  | int64
  | float64
  | utf8
  /-- Days since 1 January 1970. -/
  | date
  deriving DecidableEq

instance : Enumeration DataType where
  all := [.null, .boolean, .int64, .float64, .utf8, .date]
  name
    | .null => "Null"
    | .boolean => "Boolean"
    | .int64 => "Int64"
    | .float64 => "Float64"
    | .utf8 => "Utf8"
    | .date => "Date"
  mem_all a := by cases a <;> decide
  name_injective a b := by cases a <;> cases b <;> simp

/-- The type as a person reads it. -/
def DataType.render : DataType → String
  | .null => "NULL"
  | .boolean => "BOOLEAN"
  | .int64 => "BIGINT"
  | .float64 => "DOUBLE"
  | .utf8 => "VARCHAR"
  | .date => "DATE"

/-- A constant inside an expression. -/
inductive Scalar where
  | null
  | bool (value : Bool)
  | int64 (value : Int64)
  | float64 (value : Double)
  | utf8 (value : String)
  | date (days : Int32)
  deriving DecidableEq

namespace Scalar

def type : Scalar → DataType
  | .null => .null
  | .bool _ => .boolean
  | .int64 _ => .int64
  | .float64 _ => .float64
  | .utf8 _ => .utf8
  | .date _ => .date

/-- The two constants are of one kind and hold the same value. -/
def same : Scalar → Scalar → Bool
  | .null, .null => true
  | .bool a, .bool b => a == b
  | .int64 a, .int64 b => a == b
  | .float64 a, .float64 b => a.same b
  | .utf8 a, .utf8 b => a == b
  | .date a, .date b => a == b
  | _, _ => false

instance : BEq Scalar := ⟨same⟩

/-- The kind and the value, a double by its canonical bits, so that constants that are the
same hash equally. -/
def hash : Scalar → UInt64
  | .null => 0
  | .bool a => mixHash 1 (Hashable.hash a)
  | .int64 a => mixHash 2 a.toUInt64
  | .float64 a => mixHash 3 a.canonical
  | .utf8 a => mixHash 4 (Hashable.hash a)
  | .date a => mixHash 5 a.toUInt32.toUInt64

instance : Hashable Scalar := ⟨hash⟩

theorem hash_eq_of_same {a b : Scalar} (h : a.same b = true) : a.hash = b.hash := by
  cases a <;> cases b <;> simp_all [same, hash, Double.same]

/-- The constant as it stands in an expression. A text is put between single quotes and
not escaped. -/
def render : Scalar → String
  | .null => "null"
  | .bool b => if b then "true" else "false"
  | .int64 n => toString n.toInt
  | .float64 x => x.render
  | .utf8 s => "'" ++ s ++ "'"
  | .date d => "DATE(" ++ toString d.toInt ++ ")"

end Scalar

end QueryPlan
