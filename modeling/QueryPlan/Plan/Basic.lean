import QueryPlan.Operator

/-!
# Plans

A plan is a tree of operators. Every node carries its identity, the schema of its output
and what is known about the organisation of that output. A node is never changed; a pass
builds new nodes and may put an untouched subtree under them, which then keeps its
identity. Two nodes with one identity are the same node.
-/

namespace QueryPlan

/-- The identity of a constructed node. -/
structure NodeId where
  index : Nat
  deriving DecidableEq

/-- What every node carries beside its operator and its inputs. -/
structure Header where
  id : NodeId
  schema : Schema
  traits : Traits

/-- A plan, that is, its topmost node. -/
inductive Plan where
  | source (header : Header) (op : Source)
  | transform (header : Header) (op : Transform) (input : Plan)
  | join (header : Header) (algorithm : JoinAlgorithm) (spec : JoinSpec) (left right : Plan)

namespace Plan

def header : Plan → Header
  | .source h _ => h
  | .transform h _ _ => h
  | .join h _ _ _ _ => h

def id (p : Plan) : NodeId := p.header.id

/-- The output row. -/
def schema (p : Plan) : Schema := p.header.schema

def traits (p : Plan) : Traits := p.header.traits

def operator : Plan → Operator
  | .source _ s => .source s
  | .transform _ t _ => .transform t
  | .join _ algorithm spec _ _ => .join algorithm spec

def kind (p : Plan) : OperatorKind := p.operator.kind

/-- The inputs from left to right. -/
def inputs : Plan → List Plan
  | .source _ _ => []
  | .transform _ _ input => [input]
  | .join _ _ _ left right => [left, right]

def input? (p : Plan) (i : Nat) : Option Plan := p.inputs[i]?

def isLeaf (p : Plan) : Bool := p.inputs.isEmpty

def fieldNames (p : Plan) : List String := p.schema.names

def width (p : Plan) : Nat := p.schema.width

/-- The number of inputs is that of the operator's kind. -/
@[simp] theorem length_inputs (p : Plan) : p.inputs.length = p.kind.arity := by
  cases p with
  | source h s => cases s <;> rfl
  | transform h t input => cases t <;> rfl
  | join h algorithm spec left right => simp [inputs, kind, operator, Operator.kind]

/-- All nodes, each before its inputs, a shared subplan once for each place it has. -/
def preorder : Plan → List Plan
  | .source h s => [.source h s]
  | .transform h t input => .transform h t input :: input.preorder
  | .join h algorithm spec left right =>
    .join h algorithm spec left right :: (left.preorder ++ right.preorder)

/-- The expressions hand on the fields of a row of the given types one by one. -/
def handsOn (types : List DataType) (exprs : List Expr) : Bool :=
  exprs.length == types.length &&
    (exprs.zip types).zipIdx.all fun
      | ((.row r, t), i) => r.ordinal == i && r.type == t
      | _ => false

/-- The node is a projection that hands on its input's row. Names do not count. -/
def isIdentityProjection : Plan → Bool
  | .transform _ (.project exprs _) input => handsOn input.schema.types exprs
  | _ => false

/-- The given inputs are the very inputs the node has. -/
def hasInputs (p : Plan) (inputs : List Plan) : Bool :=
  p.inputs.map Plan.id == inputs.map Plan.id

theorem hasInputs_self (p : Plan) : p.hasInputs p.inputs = true := by
  rw [hasInputs, beq_iff_eq]

end Plan

end QueryPlan
