import QueryPlan.Plan.Basic

/-!
# Building plans

Nodes are made one after the other, and each takes the next identity that has not been
given out. There is one function per operator; it checks that every ordinal the operator
uses lies in the row it reads, and derives the schema and the traits of the output.

Three functions build on a node that exists. `withInputs` puts its operator over other
inputs and derives the schema again, `alignedInput` makes the names of a join input agree
with the names the join yields, and `ofParts` takes a schema as it is given and checks
nothing but the number of inputs.
-/

namespace QueryPlan

/-- The identities that are still to be given out: all from `next` on. -/
structure NodeSupply where
  next : Nat

/-- Work that makes nodes and may be refused. -/
abbrev PlanM := StateT NodeSupply (Except PlanError)

/-- Ordinals are below this bound, so that each fits into 64 bits. -/
def ordinalBound : Nat := UInt64.size

namespace Plan

/-- Takes the next identity. -/
def freshHeader (schema : Schema) (traits : Traits) : PlanM Header :=
  modifyGet fun s => (⟨⟨s.next⟩, schema, traits⟩, ⟨s.next + 1⟩)

def newSource (op : Source) (schema : Schema) (traits : Traits) : PlanM Plan := do
  let header ← freshHeader schema traits
  pure (.source header op)

def newTransform (op : Transform) (schema : Schema) (traits : Traits) (input : Plan) :
    PlanM Plan := do
  let header ← freshHeader schema traits
  pure (.transform header op input)

def newJoin (algorithm : JoinAlgorithm) (spec : JoinSpec) (schema : Schema) (traits : Traits)
    (left right : Plan) : PlanM Plan := do
  let header ← freshHeader schema traits
  pure (.join header algorithm spec left right)

/-- Refuses the first ordinal that is not in a row of the given width. -/
def checkOrdinals (ordinals : List Nat) (width : Nat) : Except PlanError Unit :=
  match ordinals.find? fun i => width ≤ i with
  | some i => .error (.ordinalOutOfRange i width)
  | none => .ok ()

/-- Refuses a list of expressions at the first reference beyond the row. -/
def checkExprs (exprs : List Expr) (width : Nat) : Except PlanError Unit :=
  checkOrdinals (exprs.flatMap Expr.ordinals) width

/-- The summary a writer yields. -/
def writerSchema : Schema := ⟨[⟨"Fragment", .utf8⟩, ⟨"Records", .int64⟩]⟩

/-- The row of an aggregation: the grouping fields, then one field per aggregate. -/
def aggregateSchema (input : Schema) (groupBy : List Nat) (aggregates : List Aggregate) :
    Except PlanError Schema := do
  checkOrdinals (groupBy ++ aggregates.flatMap Aggregate.args) input.width
  pure ⟨groupBy.filterMap input.field? ++ aggregates.map fun a => ⟨a.name, a.type⟩⟩

def scan (table : Table) (schema : Schema) : PlanM Plan :=
  newSource (.scan table) schema .unknown

def values (schema : Schema) (rows : Nat) : PlanM Plan :=
  newSource (.values rows) schema (.distributed .single)

def filter (input : Plan) (predicate : Expr) : PlanM Plan := do
  checkExprs [predicate] input.width
  newTransform (.filter predicate) input.schema input.traits input

/-- A projection. Unless duplicates are allowed, no two names may be alike. -/
def projectWith (allowDuplicates : Bool) (input : Plan) (exprs : List Expr)
    (names : List String) : PlanM Plan := do
  checkExprs exprs input.width
  unless allowDuplicates || Names.distinct names do throw (.namesCollide names)
  let schema ← Schema.ofExprs exprs names
  newTransform (.project exprs allowDuplicates) schema input.traits input

/-- A projection whose names are told apart. -/
def project (input : Plan) (exprs : List Expr) (names : List String) : PlanM Plan :=
  projectWith false input exprs names

/-- A projection that may repeat names. -/
def projectAllowingDuplicates (input : Plan) (exprs : List Expr) (names : List String) :
    PlanM Plan :=
  projectWith true input exprs names

/-- Refuses the first key pair that leaves its side, the left ordinal looked at first. -/
def checkKeys (leftWidth rightWidth : Nat) : List (Nat × Nat) → Except PlanError Unit
  | [] => .ok ()
  | (l, r) :: rest => do
    checkOrdinals [l] leftWidth
    checkOrdinals [r] rightWidth
    checkKeys leftWidth rightWidth rest

/-- A join. Nothing is known about how its output is distributed. -/
def joinWith (algorithm : JoinAlgorithm) (spec : JoinSpec) (left right : Plan) :
    PlanM Plan := do
  checkExprs (spec.condition :: spec.extra.toList) (left.width + right.width)
  checkKeys left.width right.width spec.keys
  newJoin algorithm spec (.join left.schema right.schema spec.joinType)
    left.traits.forgetDistribution left right

def aggregate (input : Plan) (groupBy : List Nat) (aggregates : List Aggregate) :
    PlanM Plan := do
  let schema ← aggregateSchema input.schema groupBy aggregates
  newTransform (.aggregate groupBy aggregates) schema .unknown input

def sort (input : Plan) (order : List SortKey) : PlanM Plan := do
  checkOrdinals (order.map SortKey.ordinal) input.width
  newTransform (.sort order) input.schema (input.traits.sortedBy order) input

def limit (input : Plan) (offset count : Nat) : PlanM Plan :=
  newTransform (.limit offset count) input.schema input.traits input

def exchange (input : Plan) (distribution : Distribution) : PlanM Plan :=
  newTransform (.exchange distribution) input.schema (.distributed distribution) input

def writer (input : Plan) (target : Table) : PlanM Plan :=
  newTransform (.writer target) writerSchema (.distributed .single) input

def screen (input : Plan) : PlanM Plan :=
  newTransform .screen input.schema (.distributed .single) input

/-- A node from its parts. That the schema fits the operator is up to the caller. -/
def ofParts (op : Operator) (schema : Schema) (traits : Traits) (inputs : List Plan) :
    PlanM Plan :=
  match op, inputs with
  | .source s, [] => newSource s schema traits
  | .transform t, [input] => newTransform t schema traits input
  | .join algorithm spec, [left, right] => newJoin algorithm spec schema traits left right
  | op, inputs => throw (.inputCount op.kind op.kind.arity inputs.length)

/-- The row that the operator of a node yields over another input. A row that was declared
for the operator stays. -/
def derivedSchema (declared : Schema) (op : Transform) (input : Schema) :
    Except PlanError Schema :=
  match op with
  | .project _ _ | .writer _ => .ok declared
  | .filter _ | .sort _ | .limit _ _ | .exchange _ | .screen => .ok input
  | .aggregate groupBy aggregates => aggregateSchema input groupBy aggregates

/-- A new node with the operator and the traits of this one over other inputs. -/
def withInputs (p : Plan) (inputs : List Plan) : PlanM Plan :=
  match p, inputs with
  | .source h s, [] => newSource s h.schema h.traits
  | .transform h t _, [input] => do
    let schema ← derivedSchema h.schema t input.schema
    newTransform t schema h.traits input
  | .join h algorithm spec _ _, [left, right] =>
    newJoin algorithm spec (.join left.schema right.schema spec.joinType)
      h.traits.forgetDistribution left right
  | p, inputs => throw (.inputCount p.kind p.kind.arity inputs.length)

/-- The input under the names that this node has for its fields. `offset` is the place of
the input's first field in the node's row. Where the names agree already the input is kept
as it is, and otherwise it is put under a projection that renames it. A range that lies in
the row ends at an ordinal, so only one that does not can overflow. The overflow is an outcome
of its own because sums are checked here. Without the check the end would be the sum less the
bound: if that lies in the row after all, the names cannot be cut out, as they would begin
behind their end, and if not, the range is refused with a wrong end. -/
def alignedInput (p : Plan) (offset : Nat) (input : Plan) : PlanM Plan :=
  let stop := offset + input.width
  if p.width < stop then
    if ordinalBound ≤ stop then throw (.ordinalOverflow offset input.width)
    else throw (.inputUnresolved stop offset (p.width - offset))
  else
    let names := (p.fieldNames.drop offset).take input.width
    if names == input.fieldNames then pure input
    else project input input.schema.identity names

end Plan

end QueryPlan
