import QueryPlan.Form.Basic

/-!
# Stored expressions

A constant is stored under the name of its kind, an expression under the name of its form.
Reading an expression goes down the data level by level. It cannot need more levels than
the data has, and the levels are what the recursion counts.
-/

namespace QueryPlan

open Storable

instance : Storable Scalar where
  toData
    | .null => .text "Null"
    | .bool b => .tag "Bool" (toData b)
    | .int64 n => .tag "Int64" (toData n)
    | .float64 x => .tag "Float64" (toData x)
    | .utf8 s => .tag "Utf8" (toData s)
    | .date n => .tag "Date" (toData n)
  ofData? d :=
    match d.tagged? with
    | some ("Null", none) | some ("Null", some .null) => some .null
    | some ("Bool", some d) => (ofData? d).map .bool
    | some ("Int64", some d) => (ofData? d).map .int64
    | some ("Float64", some d) => (ofData? d).map .float64
    | some ("Utf8", some d) => (ofData? d).map .utf8
    | some ("Date", some d) => (ofData? d).map .date
    | _ => none

instance : Storable RowRef where
  toData r := .object [("index", toData r.ordinal), ("data_type", toData r.type)]
  ofData? d :=
    match d.fields? ["index", "data_type"] with
    | some [ordinal, type] => do
      some ⟨← requiredField ordinal, ← requiredField type⟩
    | _ => none

instance : Storable SideRef where
  toData c := .object [("input", toData c.side), ("index", toData c.ordinal),
    ("name", toData c.name), ("data_type", toData c.type)]
  ofData? d :=
    match d.fields? ["input", "index", "name", "data_type"] with
    | some [side, ordinal, name, type] => do
      some ⟨← requiredField side, ← requiredField ordinal, ← requiredField name,
        ← requiredField type⟩
    | _ => none

namespace Expr

mutual
/-- The stored form of an expression. -/
def store : Expr → Data
  | .row r => .tag "InputRef" (toData r)
  | .side c => .tag "Column" (toData c)
  | .literal v => .tag "Literal" (toData v)
  | .binary op left right =>
    .tag "BinaryOp" (.object [("op", toData op), ("left", left.store), ("right", right.store)])
  | .unary op operand =>
    .tag "UnaryOp" (.object [("op", toData op), ("operand", operand.store)])
  | .call function args result =>
    .tag "Function" (.object [("name", toData function), ("args", .array (storeAll args)),
      ("return_type", toData result)])
  | .and es => .tag "And" (.array (storeAll es))
  | .or es => .tag "Or" (.array (storeAll es))
/-- The stored form of every member. -/
def storeAll : List Expr → List Data
  | [] => []
  | e :: es => e.store :: storeAll es
end

theorem storeAll_eq_map (es : List Expr) : storeAll es = es.map store := by
  induction es with
  | nil => rfl
  | cons e es ih => simp [storeAll, ih]

/-- Reads an expression from data of at most the given number of levels. -/
def restore? : (levels : Nat) → Data → Option Expr
  | 0, _ => none
  | levels + 1, d =>
    let member? (field : Option Data) : Option Expr := field.bind (restore? levels)
    let members? (field : Option Data) : Option (List Expr) :=
      (field.bind Data.array?).bind fun items => items.mapM (restore? levels)
    match d.tagged? with
    | some ("InputRef", contents) => (requiredField contents).map .row
    | some ("Column", contents) => (requiredField contents).map .side
    | some ("Literal", contents) => (requiredField contents).map .literal
    | some ("BinaryOp", some contents) =>
      match contents.members? ["op", "left", "right"] with
      | some [op, left, right] => do
        some (.binary (← requiredField op) (← member? left) (← member? right))
      | _ => none
    | some ("UnaryOp", some contents) =>
      match contents.members? ["op", "operand"] with
      | some [op, operand] => do
        some (.unary (← requiredField op) (← member? operand))
      | _ => none
    | some ("Function", some contents) =>
      match contents.members? ["name", "args", "return_type"] with
      | some [function, args, result] => do
        some (.call (← requiredField function) (← members? args) (← requiredField result))
      | _ => none
    | some ("And", contents) => (members? contents).map .and
    | some ("Or", contents) => (members? contents).map .or
    | _ => none

instance : Storable Expr := ⟨store, fun d => restore? d.depth d⟩

end Expr

end QueryPlan
