import QueryPlan.Plan.Basic

/-!
# Handlers

A handler computes properties of nodes. To do so it may ask about other nodes, typically
the inputs, and go on with what it is told. Such a computation is an `Inquiry`: either its
answer, or a question together with what follows from each possible answer. It depends on
nothing but the question it was given and the answers it receives.

Handlers are known by number, and the number is the identity: two handlers with equal
contents under different numbers are different handlers. Handlers are bound to the
operator kinds they serve in a registry, which keeps the order of registration and drops
nothing.
-/

namespace QueryPlan.Metadata

/-- A question about a subplan. -/
structure Question where
  property : Property
  node : Plan
  args : List Argument

/-- What a question gets: a value, no value because nobody knows, or a failure. -/
abbrev Answer := Except PlanError (Option Value)

/-- A computation that may ask questions on its way to an answer. -/
inductive Inquiry where
  | answer (a : Answer)
  | ask (q : Question) (next : Answer → Inquiry)

namespace Inquiry

/-- The inquiry that has a value. -/
def value (v : Option Value) : Inquiry := .answer (.ok v)

/-- The inquiry that fails. -/
def fail (e : PlanError) : Inquiry := .answer (.error e)

/-- Asks a question and goes on with the value; a failure is handed on. -/
def given (q : Question) (next : Option Value → Inquiry) : Inquiry :=
  .ask q fun
    | .ok v => next v
    | .error e => fail e

/-- Follows the inquiry, each question answered by `respond`, in any monad. -/
def run {m : Type → Type} [Monad m] (respond : Question → m Answer) : Inquiry → m Answer
  | .answer a => pure a
  | .ask q next => do
    let a ← respond q
    (next a).run respond

end Inquiry

/-- A provider of properties. -/
structure Handler where
  name : String
  /-- The parameters it declares for a property, node and context included. -/
  signature : Property → List Parameter
  handle : Question → Inquiry

/-- The number of a handler. -/
structure HandlerId where
  index : Nat
  deriving DecidableEq

/-- All handlers by number. -/
abbrev Handlers := HandlerId → Handler

/-- A handler is bound to a property. -/
structure Binding where
  property : Property
  handler : HandlerId
  deriving DecidableEq

/-- The bindings of all operator kinds, in the order in which they were made. -/
structure Registry where
  entries : List (OperatorKind × Binding)

namespace Registry

def empty : Registry := ⟨[]⟩

/-- Binds a handler for one operator kind. -/
def register (r : Registry) (kind : OperatorKind) (b : Binding) : Registry :=
  ⟨r.entries ++ [(kind, b)]⟩

/-- Binds a handler for every operator kind. -/
def registerAll (r : Registry) (b : Binding) : Registry :=
  (Enumeration.all : List OperatorKind).foldl (fun r kind => r.register kind b) r

/-- The bindings of an operator kind, in the order in which they were made. -/
def bindings (r : Registry) (kind : OperatorKind) : List Binding :=
  (r.entries.filter fun e => e.1 == kind).map Prod.snd

@[simp] theorem bindings_empty (kind : OperatorKind) : empty.bindings kind = [] := rfl

theorem bindings_register (r : Registry) (kind kind' : OperatorKind) (b : Binding) :
    (r.register kind b).bindings kind' =
      r.bindings kind' ++ if kind = kind' then [b] else [] := by
  by_cases h : kind = kind' <;> simp [register, bindings, List.filter_append, h]

end Registry

/-- A binding as a person reads it. -/
def Binding.render (handlers : Handlers) (b : Binding) : String :=
  "HandlerBinding \x7b kind: " ++ Enumeration.name b.property ++ ", handler: " ++
    Text.quoted (handlers b.handler).name ++ " \x7d"

/-- A list of bindings as a person reads it. -/
def Binding.renderAll (handlers : Handlers) (bs : List Binding) : String :=
  Text.bracketed (bs.map (Binding.render handlers))

/-- The registry as a person reads it: the operator kinds that have bindings, with these. -/
def Registry.render (handlers : Handlers) (r : Registry) : String :=
  let kinds := (Enumeration.all : List OperatorKind).filter fun kind => !(r.bindings kind).isEmpty
  "\x7b" ++ Text.listing (kinds.map fun kind =>
    Enumeration.name kind ++ ": " ++ Binding.renderAll handlers (r.bindings kind)) ++ "\x7d"

end QueryPlan.Metadata
