import Mathlib.Data.List.Basic
import QueryPlan.Metadata.TableCache

/-!
# What the kept tables are

The key of a list of bindings says everything about them: each handler can be found by its
slot. So a table that is kept under the key of some bindings was made of these very bindings,
and the table that is given out is the one that would be made, whatever was asked for before.
-/

namespace QueryPlan.Metadata

theorem handler_mem_providersOf {bindings : List Binding} {b : Binding} (hb : b ∈ bindings) :
    b.handler ∈ providersOf bindings :=
  List.mem_eraseDups.2 (List.mem_map_of_mem hb)

/-- Among given handlers a binding is known by its property and the slot of its handler. -/
theorem eq_of_map_slots_eq {providers : List HandlerId} {bindings bindings' : List Binding}
    (hmem : ∀ b ∈ bindings, b.handler ∈ providers)
    (hslots : bindings.map (fun b => (b.property, providers.idxOf b.handler)) =
      bindings'.map fun b => (b.property, providers.idxOf b.handler)) :
    bindings = bindings' := by
  induction bindings generalizing bindings' with
  | nil => exact (List.map_eq_nil_iff.1 hslots.symm).symm
  | cons b rest ih =>
      cases bindings' with
      | nil => simp at hslots
      | cons b' rest' =>
          rw [List.forall_mem_cons] at hmem
          rw [List.map_cons, List.map_cons, List.cons.injEq, Prod.mk.injEq,
            List.idxOf_inj hmem.1] at hslots
          obtain ⟨⟨hproperty, hhandler⟩, hrest⟩ := hslots
          have hb : b = b' := congrArg₂ Binding.mk hproperty hhandler
          rw [hb, ih hmem.2 hrest]

/-- Bindings of one key are the same ones, for the same kind. -/
theorem DispatchKey.of_inj {kind kind' : OperatorKind} {bindings bindings' : List Binding} :
    DispatchKey.of kind bindings = DispatchKey.of kind' bindings' ↔
      kind = kind' ∧ bindings = bindings' := by
  constructor
  · intro heq
    rw [DispatchKey.of, DispatchKey.of, DispatchKey.mk.injEq] at heq
    obtain ⟨hkind, hproviders, hslots⟩ := heq
    rw [← hproviders] at hslots
    exact ⟨hkind, eq_of_map_slots_eq (fun b hb => handler_mem_providersOf hb) hslots⟩
  · rintro ⟨rfl, rfl⟩
    rfl

theorem DispatchTable.kind_of_build {handlers : Handlers} {kind : OperatorKind}
    {bindings : List Binding} {table : DispatchTable}
    (h : build handlers kind bindings = .ok table) : table.kind = kind := by
  rw [build] at h
  cases hroutes : routeAll handlers kind (providersOf bindings) [] bindings with
  | error e =>
      rw [hroutes] at h
      cases h
  | ok routes =>
      rw [hroutes] at h
      cases h
      rfl

namespace TableCache

variable {handlers : Handlers} {c : TableCache} {kind : OperatorKind} {bindings : List Binding}

/-- Every table that is kept is the one that is made of the bindings of its key. -/
def Faithful (handlers : Handlers) (c : TableCache) : Prop :=
  ∀ e ∈ c.entries, ∃ kind bindings, e.1 = DispatchKey.of kind bindings ∧
    DispatchTable.build handlers kind bindings = .ok e.2

theorem faithful_empty : Faithful handlers .empty := by
  intro e he
  cases he

theorem Faithful.build_eq_of_find? (hc : c.Faithful handlers) {found : CachedTable}
    (hfound : c.find? (.of kind bindings) = some found) :
    DispatchTable.build handlers kind bindings = .ok found.table := by
  rw [find?] at hfound
  cases hplace : c.entries.findIdx? fun e => e.1 == DispatchKey.of kind bindings with
  | none =>
      rw [hplace] at hfound
      cases hfound
  | some place =>
      obtain ⟨hlt, hkey, -⟩ := List.findIdx?_eq_some_iff_getElem.1 hplace
      simp only [hplace, List.getElem?_eq_getElem hlt, Option.map_some, Option.some.injEq] at hfound
      rw [← hfound]
      obtain ⟨kind', bindings', hof, hbuild⟩ := hc _ (List.getElem_mem hlt)
      obtain ⟨rfl, rfl⟩ := DispatchKey.of_inj.1 (hof.symm.trans (beq_iff_eq.1 hkey))
      exact hbuild

/-- Of the kept tables or not, what is given out is what is made of the bindings. -/
theorem Faithful.resolve_eq (hc : c.Faithful handlers) :
    (c.resolve handlers kind bindings).1.map CachedTable.table =
      DispatchTable.build handlers kind bindings := by
  rw [resolve]
  cases hfound : c.find? (.of kind bindings) with
  | some found => exact (hc.build_eq_of_find? hfound).symm
  | none => cases DispatchTable.build handlers kind bindings <;> rfl

theorem Faithful.resolve (hc : c.Faithful handlers) :
    (c.resolve handlers kind bindings).2.Faithful handlers := by
  rw [TableCache.resolve]
  cases c.find? (.of kind bindings) with
  | some found => exact hc
  | none =>
      cases hbuild : DispatchTable.build handlers kind bindings with
      | error e => exact hc
      | ok table =>
          refine List.forall_mem_append.2 ⟨hc, List.forall_mem_singleton.2 ?_⟩
          exact ⟨kind, bindings, rfl, hbuild⟩

end TableCache

end QueryPlan.Metadata
