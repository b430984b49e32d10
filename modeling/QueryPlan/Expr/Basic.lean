import QueryPlan.Scalar
import QueryPlan.Text.Listing

/-!
# Scalar expressions

Expressions stand inside operators: filter predicates, projection lists, join conditions.
They refer to the row they are evaluated on by ordinal, so renaming a column never changes
an expression, only the schema around it. A join is written over the combined row of its
two inputs, the left fields followed by the right ones; where each reference has to say
which input it reads, it is a `SideRef`.

A conjunction and a disjunction hold all their members in one list, so a condition falls
apart into its conjuncts without a walk down a chain of binary nodes.

The functions on expressions come in pairs, one for an expression and one for a list of
them, because an expression may hold lists of expressions. The lemmas after each pair say
what the second does in terms of the list operations.
-/

namespace QueryPlan

/-- Comparison and arithmetic. -/
inductive BinaryOp where
  /-- Two unknown values do not compare equal. -/
  | eq
  /-- Equality under which two unknown values are equal. -/
  | isNotDistinctFrom
  | notEq
  | lt
  | ltEq
  | gt
  | gtEq
  | add
  | sub
  | mul
  | div
  deriving DecidableEq

instance : Enumeration BinaryOp where
  all := [.eq, .isNotDistinctFrom, .notEq, .lt, .ltEq, .gt, .gtEq, .add, .sub, .mul, .div]
  name
    | .eq => "Eq"
    | .isNotDistinctFrom => "IsNotDistinctFrom"
    | .notEq => "NotEq"
    | .lt => "Lt"
    | .ltEq => "LtEq"
    | .gt => "Gt"
    | .gtEq => "GtEq"
    | .add => "Add"
    | .sub => "Sub"
    | .mul => "Mul"
    | .div => "Div"
  mem_all a := by cases a <;> decide
  name_injective a b := by cases a <;> cases b <;> simp

namespace BinaryOp

/-- The result is a truth value, not a number. -/
def isComparison : BinaryOp → Bool
  | .add | .sub | .mul | .div => false
  | _ => true

def symbol : BinaryOp → String
  | .eq => "="
  | .isNotDistinctFrom => "IS NOT DISTINCT FROM"
  | .notEq => "<>"
  | .lt => "<"
  | .ltEq => "<="
  | .gt => ">"
  | .gtEq => ">="
  | .add => "+"
  | .sub => "-"
  | .mul => "*"
  | .div => "/"

end BinaryOp

/-- Negation and tests for an unknown value. -/
inductive UnaryOp where
  | not
  | neg
  | isNull
  | isNotNull
  deriving DecidableEq

instance : Enumeration UnaryOp where
  all := [.not, .neg, .isNull, .isNotNull]
  name
    | .not => "Not"
    | .neg => "Neg"
    | .isNull => "IsNull"
    | .isNotNull => "IsNotNull"
  mem_all a := by cases a <;> decide
  name_injective a b := by cases a <;> cases b <;> simp

def UnaryOp.symbol : UnaryOp → String
  | .not => "NOT"
  | .neg => "-"
  | .isNull => "IS NULL"
  | .isNotNull => "IS NOT NULL"

/-- A field of the row an expression is evaluated on, by ordinal. -/
structure RowRef where
  ordinal : Nat
  type : DataType
  deriving DecidableEq

/-- A field of one particular join input. -/
structure SideRef where
  /-- 0 for the left input, 1 for the right one. -/
  side : Nat
  /-- The ordinal within that input. -/
  ordinal : Nat
  name : String
  type : DataType
  deriving DecidableEq

/-- The side and the name of the field. -/
def SideRef.render (c : SideRef) : String := "$" ++ toString c.side ++ "." ++ c.name

/-- A scalar expression. -/
inductive Expr where
  | row (ref : RowRef)
  | side (ref : SideRef)
  | literal (value : Scalar)
  | binary (op : BinaryOp) (left right : Expr)
  | unary (op : UnaryOp) (operand : Expr)
  | call (function : String) (args : List Expr) (result : DataType)
  | and (conjuncts : List Expr)
  | or (disjuncts : List Expr)

namespace Expr

/-- The type of the value. Arithmetic has the type of its left operand. -/
def type : Expr → DataType
  | .row r => r.type
  | .side c => c.type
  | .literal v => v.type
  | .binary op left _ => if op.isComparison then .boolean else left.type
  | .unary .neg operand => operand.type
  | .unary _ _ => .boolean
  | .call _ _ result => result
  | .and _ | .or _ => .boolean

/-- The ordinal, if the expression is nothing but a reference to a field of the row. -/
def bareOrdinal? : Expr → Option Nat
  | .row r => some r.ordinal
  | _ => none

mutual
/-- The expression is the constant true or a conjunction of such. -/
def alwaysTrue : Expr → Bool
  | .literal (.bool true) => true
  | .and es => allAlwaysTrue es
  | _ => false
/-- Every member is always true. -/
def allAlwaysTrue : List Expr → Bool
  | [] => true
  | e :: es => e.alwaysTrue && allAlwaysTrue es
end

mutual
/-- The conjuncts of nested conjunctions in order. The constant true says nothing and is
left out, so a condition that is true has no conjuncts. -/
def conjuncts : Expr → List Expr
  | .and es => conjunctsOfAll es
  | .literal (.bool true) => []
  | e => [e]
/-- The conjuncts of every member in order. -/
def conjunctsOfAll : List Expr → List Expr
  | [] => []
  | e :: es => e.conjuncts ++ conjunctsOfAll es
end

mutual
/-- The ordinals of all references to the row, from left to right, repetitions kept. -/
def ordinals : Expr → List Nat
  | .row r => [r.ordinal]
  | .side _ | .literal _ => []
  | .binary _ left right => left.ordinals ++ right.ordinals
  | .unary _ operand => operand.ordinals
  | .call _ args _ => ordinalsOfAll args
  | .and es | .or es => ordinalsOfAll es
/-- The ordinals of every member in order. -/
def ordinalsOfAll : List Expr → List Nat
  | [] => []
  | e :: es => e.ordinals ++ ordinalsOfAll es
end

theorem allAlwaysTrue_eq_all (es : List Expr) : allAlwaysTrue es = es.all alwaysTrue := by
  induction es with
  | nil => rfl
  | cons e es ih => simp [allAlwaysTrue, ih]

theorem conjunctsOfAll_eq_flatMap (es : List Expr) :
    conjunctsOfAll es = es.flatMap conjuncts := by
  induction es with
  | nil => rfl
  | cons e es ih => simp [conjunctsOfAll, ih]

theorem ordinalsOfAll_eq_flatMap (es : List Expr) :
    ordinalsOfAll es = es.flatMap ordinals := by
  induction es with
  | nil => rfl
  | cons e es ih => simp [ordinalsOfAll, ih]

mutual
/-- The text of an expression: the operator or function first, its operands in round
brackets behind it. -/
def render : Expr → String
  | .row r => "$" ++ toString r.ordinal
  | .side c => c.render
  | .literal v => v.render
  | .binary op left right => op.symbol ++ "(" ++ left.render ++ ", " ++ right.render ++ ")"
  | .unary op operand => op.symbol ++ "(" ++ operand.render ++ ")"
  | .call function args _ => function ++ "(" ++ Text.listing (renderAll args) ++ ")"
  | .and es => "AND(" ++ Text.listing (renderAll es) ++ ")"
  | .or es => "OR(" ++ Text.listing (renderAll es) ++ ")"
/-- The text of every member. -/
def renderAll : List Expr → List String
  | [] => []
  | e :: es => e.render :: renderAll es
end

theorem renderAll_eq_map (es : List Expr) : renderAll es = es.map render := by
  induction es with
  | nil => rfl
  | cons e es ih => simp [renderAll, ih]

end Expr

end QueryPlan
