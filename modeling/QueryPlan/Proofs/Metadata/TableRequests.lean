import Mathlib.Data.Finset.Card
import QueryPlan.Proofs.Metadata.TableCache

/-!
# A history of requests for tables

A request is answered from the kept tables, or it is refused and leaves nothing behind, or a
table is made and kept behind all others. Tables are never dropped or moved. So the place of a
table that was given out belongs to its key for good, and as the key tells requests apart,
two requests are given one table exactly if they are the same request. There are as many tables
as there were different requests that were not refused, and each was made once.
-/

namespace QueryPlan.Metadata

/-- A request for the table of some bindings of an operator kind. -/
structure TableRequest where
  kind : OperatorKind
  bindings : List Binding
  deriving DecidableEq

namespace TableRequest

/-- The key under which the table is kept. -/
def key (r : TableRequest) : DispatchKey := .of r.kind r.bindings

/-- What the request comes to if no tables are kept. -/
def fresh (handlers : Handlers) (r : TableRequest) : Except PlanError DispatchTable :=
  DispatchTable.build handlers r.kind r.bindings

theorem key_injective : Function.Injective key := by
  rintro ⟨kind, bindings⟩ ⟨kind', bindings'⟩ heq
  obtain ⟨rfl, rfl⟩ := DispatchKey.of_inj.1 heq
  rfl

/-- Requests are the same if they are for one kind and their bindings agree one by one. -/
theorem eq_iff {r r' : TableRequest} :
    r = r' ↔ r.kind = r'.kind ∧
      List.Forall₂ (fun b b' => b.property = b'.property ∧ b.handler = b'.handler) r.bindings
        r'.bindings := by
  have hbinding : (fun b b' : Binding => b.property = b'.property ∧ b.handler = b'.handler) =
      Eq := by
    funext ⟨property, handler⟩ ⟨property', handler'⟩
    rw [Binding.mk.injEq]
  rw [hbinding, List.forall₂_eq_eq_eq]
  obtain ⟨kind, bindings⟩ := r
  rw [TableRequest.mk.injEq]

end TableRequest

namespace TableCache

variable {handlers : Handlers} {c c' : TableCache} {r : TableRequest}

/-- Makes the requests one after the other, and returns what each of them was given. -/
def resolveAll (handlers : Handlers) (c : TableCache) :
    List TableRequest → List (Except PlanError CachedTable) × TableCache
  | [] => ([], c)
  | r :: rest =>
    let (found, c₁) := c.resolve handlers r.kind r.bindings
    let (later, c') := c₁.resolveAll handlers rest
    (found :: later, c')

/-- The keys of the kept tables, in order. -/
def keys (c : TableCache) : List DispatchKey := c.entries.map Prod.fst

/-- The table that was given out stands at its place under the key of the request. -/
def Keeps (c : TableCache) (r : TableRequest) (t : CachedTable) : Prop :=
  c.entries[t.place]? = some (r.key, t.table)

/-- Every key is there once, and as many tables are kept as have been made. -/
structure Tidy (c : TableCache) : Prop where
  nodup_keys : c.keys.Nodup
  size_eq : c.size = c.builds

theorem tidy_empty : Tidy .empty := ⟨List.nodup_nil, rfl⟩

theorem keeps_of_find? {t : CachedTable} (h : c.find? r.key = some t) : c.Keeps r t := by
  rw [find?] at h
  cases hplace : c.entries.findIdx? fun e => e.1 == r.key with
  | none =>
      rw [hplace] at h
      cases h
  | some place =>
      obtain ⟨hlt, hkey, -⟩ := List.findIdx?_eq_some_iff_getElem.1 hplace
      simp only [hplace, List.getElem?_eq_getElem hlt, Option.map_some, Option.some.injEq] at h
      rw [← h, Keeps, List.getElem?_eq_getElem hlt, ← beq_iff_eq.1 hkey]

theorem notMem_keys_of_find? (h : c.find? r.key = none) : r.key ∉ c.keys := by
  intro hmem
  obtain ⟨e, he, hkey⟩ := List.mem_map.1 hmem
  rw [find?] at h
  cases hplace : c.entries.findIdx? fun e => e.1 == r.key with
  | none =>
      have hother := List.findIdx?_eq_none_iff.1 hplace e he
      rw [hkey, beq_self_eq_true] at hother
      cases hother
  | some place =>
      obtain ⟨hlt, -⟩ := List.findIdx?_eq_some_iff_getElem.1 hplace
      simp [hplace, List.getElem?_eq_getElem hlt] at h

/-- What a request can do. -/
inductive Resolves (handlers : Handlers) (c : TableCache) (r : TableRequest) :
    Except PlanError CachedTable → TableCache → Prop where
  | kept {t : CachedTable} : c.Keeps r t → Resolves handlers c r (.ok t) c
  | refused {e : PlanError} : r.fresh handlers = .error e → r.key ∉ c.keys →
    Resolves handlers c r (.error e) c
  | made {table : DispatchTable} : r.fresh handlers = .ok table → r.key ∉ c.keys →
    Resolves handlers c r (.ok ⟨c.size, table⟩) ⟨c.entries ++ [(r.key, table)], c.builds + 1⟩

theorem resolves (handlers : Handlers) (c : TableCache) (r : TableRequest) :
    Resolves handlers c r (c.resolve handlers r.kind r.bindings).1
      (c.resolve handlers r.kind r.bindings).2 := by
  have hkey : DispatchKey.of r.kind r.bindings = r.key := rfl
  rw [resolve, hkey]
  cases hfound : c.find? r.key with
  | some t => exact .kept (keeps_of_find? hfound)
  | none =>
      have hnew := notMem_keys_of_find? hfound
      cases hbuild : DispatchTable.build handlers r.kind r.bindings with
      | error e => exact .refused hbuild hnew
      | ok table => exact .made hbuild hnew

section Step

variable {found : Except PlanError CachedTable} {t : CachedTable}

/-- Tables are neither dropped nor moved. -/
theorem Resolves.entries_prefix (h : Resolves handlers c r found c') :
    c.entries <+: c'.entries := by
  cases h with
  | kept | refused => exact List.prefix_rfl
  | made => exact List.prefix_append _ _

theorem Resolves.keeps (h : Resolves handlers c r (.ok t) c') : c'.Keeps r t := by
  cases h with
  | kept hkeeps => exact hkeeps
  | made =>
      rw [Keeps, size, List.getElem?_append_right (Nat.le_refl _), Nat.sub_self]
      rfl

theorem Resolves.tidy (h : Resolves handlers c r found c') (hc : c.Tidy) : c'.Tidy := by
  cases h with
  | kept | refused => exact hc
  | made _ hnew =>
      constructor
      · rw [keys, List.map_append]
        exact hc.nodup_keys.append (List.nodup_singleton _)
          (List.disjoint_singleton.2 hnew)
      · rw [size, List.length_append, ← hc.size_eq]
        rfl

/-- A key is there after a request if it was there or if it is that of the request and the
request was not refused. -/
theorem Resolves.mem_keys (h : Resolves handlers c r found c') {key : DispatchKey} :
    key ∈ c'.keys ↔ key ∈ c.keys ∨ (r.key = key ∧ (r.fresh handlers).isOk = true) := by
  cases h with
  | kept hkeeps =>
      have hmem : r.key ∈ c.keys := List.mem_map_of_mem (List.mem_of_getElem? hkeeps)
      refine ⟨Or.inl, ?_⟩
      rintro (hold | ⟨rfl, -⟩)
      · exact hold
      · exact hmem
  | refused hfresh =>
      rw [hfresh]
      simp [Except.isOk, Except.toBool]
  | made hfresh =>
      rw [hfresh, keys, List.map_append, List.mem_append]
      simp [keys, Except.isOk, Except.toBool, eq_comm]

end Step

section History

variable {requests : List TableRequest} {answers : List (Except PlanError CachedTable)}

/-- How a history of requests can go. -/
inductive ResolvesAll (handlers : Handlers) : TableCache → List TableRequest →
    List (Except PlanError CachedTable) → TableCache → Prop where
  | nil {c : TableCache} : ResolvesAll handlers c [] [] c
  | cons {c c₁ c' : TableCache} {r : TableRequest} {found : Except PlanError CachedTable}
      {rest : List TableRequest} {later : List (Except PlanError CachedTable)} :
    Resolves handlers c r found c₁ → ResolvesAll handlers c₁ rest later c' →
    ResolvesAll handlers c (r :: rest) (found :: later) c'

theorem resolvesAll (handlers : Handlers) (c : TableCache) (requests : List TableRequest) :
    ResolvesAll handlers c requests (c.resolveAll handlers requests).1
      (c.resolveAll handlers requests).2 := by
  induction requests generalizing c with
  | nil => exact .nil
  | cons r rest ih => exact .cons (resolves handlers c r) (ih _)

theorem ResolvesAll.entries_prefix (h : ResolvesAll handlers c requests answers c') :
    c.entries <+: c'.entries := by
  induction h with
  | nil => exact List.prefix_rfl
  | cons hstep _ ih => exact hstep.entries_prefix.trans ih

theorem ResolvesAll.tidy (h : ResolvesAll handlers c requests answers c') (hc : c.Tidy) :
    c'.Tidy := by
  induction h with
  | nil => exact hc
  | cons hstep _ ih => exact ih (hstep.tidy hc)

theorem Keeps.of_prefix {t : CachedTable} (h : c.Keeps r t) (hle : c.entries <+: c'.entries) :
    c'.Keeps r t := by
  obtain ⟨more, hmore⟩ := hle
  have hlt : t.place < c.entries.length := (List.getElem?_eq_some_iff.1 h).1
  rw [Keeps, ← hmore, List.getElem?_append_left hlt]
  exact h

/-- A table that was given out in the course of the history is there at its end. -/
theorem ResolvesAll.keeps (h : ResolvesAll handlers c requests answers c') {i : Nat}
    {t : CachedTable} (hr : requests[i]? = some r) (ht : answers[i]? = some (.ok t)) :
    c'.Keeps r t := by
  induction h generalizing i with
  | nil => cases hr
  | cons hstep hrest ih =>
      cases i with
      | zero =>
          cases hr
          cases ht
          exact hstep.keeps.of_prefix hrest.entries_prefix
      | succ i => exact ih hr ht

theorem ResolvesAll.mem_keys (h : ResolvesAll handlers c requests answers c')
    {key : DispatchKey} :
    key ∈ c'.keys ↔ key ∈ c.keys ∨
      ∃ r ∈ requests, r.key = key ∧ (r.fresh handlers).isOk = true := by
  induction h with
  | nil => simp
  | cons hstep _ ih =>
      simp only [ih, hstep.mem_keys, List.mem_cons, exists_eq_or_imp, or_assoc]

theorem map_table_resolveAll (hc : c.Faithful handlers) (requests : List TableRequest) :
    (c.resolveAll handlers requests).1.map (Except.map CachedTable.table) =
      requests.map (TableRequest.fresh handlers) := by
  induction requests generalizing c with
  | nil => rfl
  | cons r rest ih =>
      rw [resolveAll, List.map_cons, List.map_cons, ih hc.resolve, hc.resolve_eq]
      rfl

/-- In a tidy cache a place belongs to one key and a key to one place. -/
theorem Tidy.place_eq_iff (hc : c.Tidy) {r' : TableRequest} {t t' : CachedTable}
    (h : c.Keeps r t) (h' : c.Keeps r' t') : t.place = t'.place ↔ r = r' := by
  have hat : c.keys[t.place]? = some r.key := by
    rw [keys, List.getElem?_map, h]
    rfl
  have hat' : c.keys[t'.place]? = some r'.key := by
    rw [keys, List.getElem?_map, h']
    rfl
  constructor
  · intro heq
    rw [heq, hat', Option.some.injEq] at hat
    exact (TableRequest.key_injective hat).symm
  · rintro rfl
    exact (List.getElem?_inj (List.getElem?_eq_some_iff.1 hat).1 hc.nodup_keys).1
      (hat.trans hat'.symm)

/-- From an empty cache, the kept tables are those of the requests that were not refused. -/
theorem ResolvesAll.size_eq (h : ResolvesAll handlers .empty requests answers c) :
    c.size = (requests.filter fun r => (r.fresh handlers).isOk).toFinset.card := by
  have hkeys : c.keys.toFinset =
      (requests.filter fun r => (r.fresh handlers).isOk).toFinset.image TableRequest.key := by
    ext key
    rw [List.mem_toFinset, h.mem_keys, Finset.mem_image]
    simp [keys, empty, and_assoc, and_comm]
  calc c.size = c.keys.length := (List.length_map _).symm
    _ = c.keys.toFinset.card := (List.toFinset_card_of_nodup (h.tidy tidy_empty).nodup_keys).symm
    _ = _ := by rw [hkeys, Finset.card_image_of_injective _ TableRequest.key_injective]

end History

/-- A history of requests for tables that begins with none kept. Each request is given the very
table that would be made of its bindings, or refused as this would be, and what it was given
stays at its place to the end. Two requests are given one table exactly if they are for one kind
and their bindings agree one by one. There are as many tables as requests that differ and were
not refused, each was made once, and a refused request changes nothing. -/
theorem resolveAll_empty (handlers : Handlers) (requests : List TableRequest) :
    ∃ answers c, empty.resolveAll handlers requests = (answers, c) ∧
      answers.map (Except.map CachedTable.table) = requests.map (TableRequest.fresh handlers) ∧
      (∀ (i : Nat) (r : TableRequest) (t : CachedTable), requests[i]? = some r →
        answers[i]? = some (.ok t) →
        t.table.kind = r.kind ∧ c.entries[t.place]? = some (r.key, t.table)) ∧
      (∀ (i j : Nat) (r r' : TableRequest) (t t' : CachedTable), requests[i]? = some r →
        requests[j]? = some r' →
        answers[i]? = some (.ok t) → answers[j]? = some (.ok t') →
        (t.place = t'.place ↔ r.kind = r'.kind ∧
          List.Forall₂ (fun b b' => b.property = b'.property ∧ b.handler = b'.handler)
            r.bindings r'.bindings)) ∧
      c.size = c.builds ∧
      c.size = (requests.filter fun r => (r.fresh handlers).isOk).toFinset.card ∧
      ∀ (before : TableCache) (r : TableRequest) (e : PlanError),
        (before.resolve handlers r.kind r.bindings).1 = .error e →
          (before.resolve handlers r.kind r.bindings).2 = before := by
  have hall := resolvesAll handlers .empty requests
  have htidy := hall.tidy tidy_empty
  have hempty : empty.Faithful handlers := faithful_empty
  have htables := map_table_resolveAll hempty requests
  refine ⟨_, _, rfl, htables, fun i r t hr ht => ⟨?_, hall.keeps hr ht⟩, ?_, htidy.size_eq,
    hall.size_eq, ?_⟩
  · have hfresh := congrArg (·[i]?) htables
    simp only [List.getElem?_map, hr, ht, Option.map_some, Option.some.injEq] at hfresh
    exact DispatchTable.kind_of_build hfresh.symm
  · intro i j r r' t t' hr hr' ht ht'
    rw [← TableRequest.eq_iff]
    exact htidy.place_eq_iff (hall.keeps hr ht) (hall.keeps hr' ht')
  · intro before r e herror
    have hstep := resolves handlers before r
    rw [herror] at hstep
    generalize (before.resolve handlers r.kind r.bindings).2 = after at hstep ⊢
    cases hstep with
    | refused => rfl

end TableCache

end QueryPlan.Metadata
