import QueryPlan.Metadata.Handler

/-!
# Dispatch tables

A dispatch table says, for one operator kind, which handlers are asked about which
property, and in which order. It is made from the bindings of the kind. The handlers that
occur in them get a slot each, in order of first appearance, so a handler that is bound
several times has one slot. A binding takes part if what the handler declares for the
property is exactly what the property asks for; if the handler declares other parameters
behind the node and the context, the binding is passed over. A handler that does not even
declare these two is a mistake in the registration, and no table is made.

The handlers of a property are asked in the order of their slots.
-/

namespace QueryPlan.Metadata

/-- The handlers of the bindings, each once, in order of first appearance. -/
def providersOf (bindings : List Binding) : List HandlerId :=
  (bindings.map Binding.handler).eraseDups

/-- What tells one set of bindings from another: the operator kind, the distinct handlers,
and the property and the slot of each binding. -/
structure DispatchKey where
  kind : OperatorKind
  providers : List HandlerId
  bindings : List (Property × Nat)
  deriving DecidableEq

/-- The key of a list of bindings. -/
def DispatchKey.of (kind : OperatorKind) (bindings : List Binding) : DispatchKey :=
  let providers := providersOf bindings
  ⟨kind, providers, bindings.map fun b => (b.property, providers.idxOf b.handler)⟩

/-- Properties with a slot that answers them, each pair once, in the order in which the
pairs were found. -/
abbrev Routes := List (Property × Nat)

namespace Routes

/-- The slots of a property in the order in which they were found. -/
def slotsOf (routes : Routes) (p : Property) : List Nat :=
  (routes.filter fun r => r.1 == p).map Prod.snd

/-- Adds a pair that is not there yet. -/
def add (routes : Routes) (p : Property) (slot : Nat) : Routes :=
  if routes.contains (p, slot) then routes else routes ++ [(p, slot)]

end Routes

/-- A table as a person reads it: a line for each slot and a line for each property. -/
def renderTable (kind : OperatorKind) (providerNames : List String)
    (slotsOf : Property → List Nat) : String :=
  let slotName (i : Nat) := "provider" ++ toString i
  let providerLines := providerNames.mapIdx fun i name => "  " ++ slotName i ++ ": " ++ name ++ "\n"
  let propertyLines := (Enumeration.all : List Property).map fun p =>
    "  " ++ Enumeration.name p ++ " -> " ++
      (match slotsOf p with
      | [] => "no definition"
      | slots => Text.listing (slots.map slotName)) ++ "\n"
  "dispatcher for " ++ Enumeration.name kind ++ "\n" ++ String.join providerLines ++
    String.join propertyLines

/-- Which handlers are asked about a node of one operator kind. -/
structure DispatchTable where
  kind : OperatorKind
  /-- The handler in each slot. -/
  providers : List HandlerId
  routes : Routes

namespace DispatchTable

/-- Goes through the bindings that are left and adds to the routes found so far. -/
def routeAll (handlers : Handlers) (kind : OperatorKind) (providers : List HandlerId) :
    Routes → List Binding → Except PlanError Routes
  | routes, [] => .ok routes
  | routes, b :: rest =>
    let handler := handlers b.handler
    let declared := handler.signature b.property
    if declared.take 2 == Parameter.implicit then
      if declared.drop 2 == b.property.parameters then
        routeAll handlers kind providers
          (routes.add b.property (providers.idxOf b.handler)) rest
      else routeAll handlers kind providers routes rest
    else
      let table := renderTable kind (providers.map fun h => (handlers h).name) routes.slotsOf
      .error (.signatureMalformed kind handler.name declared b.property table)

/-- Makes the table of a list of bindings. -/
def build (handlers : Handlers) (kind : OperatorKind) (bindings : List Binding) :
    Except PlanError DispatchTable := do
  let providers := providersOf bindings
  let routes ← routeAll handlers kind providers [] bindings
  pure ⟨kind, providers, routes⟩

/-- The number of distinct handlers. -/
def slotCount (t : DispatchTable) : Nat := t.providers.length

/-- The slots that answer a property, in the order in which they are asked. -/
def slots (t : DispatchTable) (p : Property) : List Nat :=
  (List.range t.slotCount).filter fun i => t.routes.contains (p, i)

/-- Somebody is asked about the property. -/
def supports (t : DispatchTable) (p : Property) : Bool := !(t.slots p).isEmpty

/-- The handlers that answer a property, in the order in which they are asked. -/
def handlersFor (t : DispatchTable) (p : Property) : List HandlerId :=
  (t.slots p).filterMap fun i => t.providers[i]?

/-- The table as a person reads it. -/
def describe (handlers : Handlers) (t : DispatchTable) : String :=
  renderTable t.kind (t.providers.map fun h => (handlers h).name) t.slots

end DispatchTable

end QueryPlan.Metadata
