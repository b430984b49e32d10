import QueryPlan.Metadata.DispatchTable

/-!
# Tables that have been made

Dispatch tables are shared: a table is made once for each key and kept for good. A table
is known by its place among the kept ones, so two requests have been given one and the same
table exactly if they were given one place. A table that cannot be made leaves nothing
behind.
-/

namespace QueryPlan.Metadata

/-- The tables that have been made, in order, each with its key, and how often one was
made. -/
structure TableCache where
  entries : List (DispatchKey × DispatchTable)
  builds : Nat

/-- A table that was given out, and its place. -/
structure CachedTable where
  place : Nat
  table : DispatchTable

namespace TableCache

def empty : TableCache := ⟨[], 0⟩

/-- The number of tables kept. -/
def size (c : TableCache) : Nat := c.entries.length

/-- The kept table with a key. -/
def find? (c : TableCache) (key : DispatchKey) : Option CachedTable :=
  match c.entries.findIdx? fun e => e.1 == key with
  | none => none
  | some place => (c.entries[place]?).map fun e => ⟨place, e.2⟩

/-- The table of a list of bindings: the kept one, or a new one that is kept from now
on. -/
def resolve (handlers : Handlers) (c : TableCache) (kind : OperatorKind)
    (bindings : List Binding) : Except PlanError CachedTable × TableCache :=
  let key := DispatchKey.of kind bindings
  match c.find? key with
  | some found => (.ok found, c)
  | none =>
    match DispatchTable.build handlers kind bindings with
    | .error e => (.error e, c)
    | .ok table => (.ok ⟨c.size, table⟩, ⟨c.entries ++ [(key, table)], c.builds + 1⟩)

end TableCache

end QueryPlan.Metadata
