import QueryPlan.Metadata.Session
import QueryPlan.Proofs.Metadata.TableRequests

/-!
# What is kept throughout a session

Two things are kept throughout a session. A table in the cache is the one that is made of its
bindings, and a remembered answer is warranted. What warrants an answer is left open here. It may be
that a question of its key comes to it, or only that the node of its key is of a kind that has its
table.

A question is refused, or its answer is remembered, or the table of its kind cannot be made, or the
handlers of the table are asked. Nothing is remembered before the handlers have answered, so it is
for their answer alone that a warrant must be given. This is the step, and what each step keeps is
kept in every session that comes about by such steps.
-/

namespace QueryPlan.Metadata.Session

variable {handlers : Handlers} {registry : Registry} {warrant : MemoKey → Option Value → Prop}
  {respond : Question → SessionM Answer} {s s' : Session} {c : TableCache} {q : Question}
  {a : Answer} {n : Nat}

/-- What the handlers were asked in the session, in order. -/
def asked (s : Session) : List (HandlerId × MemoKey) :=
  s.events.filterMap fun
    | .asked h key => some (h, key)
    | .shown _ => none

/-- The session after an answer: a value is remembered, and that nobody knows as well. -/
def keep (s : Session) (key : MemoKey) : Answer → Session
  | .ok v => s.remember key v
  | .error _ => s

/-- The tables in the cache are those that would be made, and every remembered answer is
warranted. -/
structure Warranted (handlers : Handlers) (registry : Registry)
    (warrant : MemoKey → Option Value → Prop) (s : Session) : Prop where
  registry_eq : s.registry = registry
  cache : s.cache.Faithful handlers
  memo : ∀ e ∈ s.memo, warrant e.1 e.2

/-- The work keeps a session warranted, and its answers are of one sort. -/
def Ensures (handlers : Handlers) (registry : Registry) (warrant : MemoKey → Option Value → Prop)
    (sort : Answer → Prop) (x : SessionM Answer) : Prop :=
  ∀ ⦃s s' a⦄, Warranted handlers registry warrant s → x.run s = some (a, s') →
    Warranted handlers registry warrant s' ∧ sort a

/-- The sessions there can be if steps of some sort are made in them. Sessions may share a cache,
and then one of them goes on with what another one left of it. -/
inductive Arises (handlers : Handlers) (step : Session → Session → Prop) : Session → Prop where
  | start (registry : Registry) : Arises handlers step (start registry .empty)
  | share {s t : Session} : Arises handlers step s → Arises handlers step t →
    Arises handlers step { t with cache := s.cache }
  | withSettings {s : Session} (settings : Settings) : Arises handlers step s →
    Arises handlers step (s.withSettings settings)
  | resolve {s s' : Session} {kind : OperatorKind} {bindings : List Binding}
      {found : Except PlanError CachedTable} : Arises handlers step s →
    (resolve handlers kind bindings).run s = some (found, s') → Arises handlers step s'
  | step {s s' : Session} : Arises handlers step s → step s s' → Arises handlers step s'

/-! ### How a question goes -/

theorem run_resolve {kind : OperatorKind} {bindings : List Binding}
    {found : Except PlanError CachedTable}
    (hfound : s.cache.resolve handlers kind bindings = (found, c)) :
    (resolve handlers kind bindings).run s = some (found, { s with cache := c }) := by
  have hrun : (resolve handlers kind bindings).run s =
      some ((s.cache.resolve handlers kind bindings).1,
        { s with cache := (s.cache.resolve handlers kind bindings).2 }) := rfl
  rw [hrun, hfound]

theorem run_compute_of_error {e : PlanError}
    (hfound : s.cache.resolve handlers q.node.kind (s.registry.bindings q.node.kind) =
      (.error e, c)) :
    (compute handlers respond q).run s = some (.error e, { s with cache := c }) := by
  simp only [compute, StateT.run_bind, StateT.run_get, pure_bind, run_resolve hfound]
  rfl

theorem run_compute_of_ok {found : CachedTable}
    (hfound : s.cache.resolve handlers q.node.kind (s.registry.bindings q.node.kind) =
      (.ok found, c)) :
    (compute handlers respond q).run s =
      (dispatch handlers respond found.table q).run
          (showTable handlers found.table { s with cache := c }) >>= fun p =>
        some (p.1, p.2.keep q.key p.1) := by
  simp only [compute, StateT.run_bind, StateT.run_get, StateT.run_modify, pure_bind,
    run_resolve hfound, Option.bind_eq_bind, Option.bind_some]
  refine Option.bind_congr fun p _ => ?_
  obtain ⟨e | v, s'⟩ := p
  · rfl
  · rfl

theorem run_ask_of_checkArguments {e : PlanError} (hargs : checkArguments q = .error e) :
    (ask handlers (n + 1) q).run s = some (.error e, s) := by
  rw [ask, hargs]
  rfl

theorem run_ask_of_remembered {v : Option Value} (hargs : checkArguments q = .ok ())
    (hv : s.remembered? q.key = some v) :
    (ask handlers (n + 1) q).run s = some (.ok v, s) := by
  rw [ask, hargs]
  simp [hv]

theorem run_ask_of_not_remembered (hargs : checkArguments q = .ok ())
    (hv : s.remembered? q.key = none) :
    (ask handlers (n + 1) q).run s = (compute handlers (ask handlers n) q).run s := by
  rw [ask, hargs]
  simp [hv]

/-- What is remembered under a key was stored under one that is the same. -/
theorem exists_mem_of_remembered {key : MemoKey} {v : Option Value}
    (hv : s.remembered? key = some v) : ∃ e ∈ s.memo, (e.1 == key) = true ∧ e.2 = v := by
  obtain ⟨e, hfound, rfl⟩ := Option.map_eq_some_iff.1 hv
  have hkey : (e.1 == key) = true :=
    List.find?_some (p := fun e : MemoKey × Option Value => e.1 == key) hfound
  exact ⟨e, List.mem_of_find?_eq_some hfound, hkey, rfl⟩

theorem memo_showTable (t : DispatchTable) (s : Session) :
    (showTable handlers t s).memo = s.memo := by
  rw [showTable]
  split <;> rfl

theorem asked_showTable (t : DispatchTable) (s : Session) :
    (showTable handlers t s).asked = s.asked := by
  rw [showTable]
  split
  · rw [asked, record, List.filterMap_append]
    exact List.append_nil _
  · rfl

/-! ### The parts of a session -/

namespace Warranted

theorem start (hc : c.Faithful handlers) :
    Warranted handlers registry warrant (start registry c) := ⟨rfl, hc, by simp [Session.start]⟩

variable (hs : Warranted handlers registry warrant s)

include hs

theorem withCache (hc : c.Faithful handlers) :
    Warranted handlers registry warrant { s with cache := c } := ⟨hs.registry_eq, hc, hs.memo⟩

theorem withSettings (settings : Settings) :
    Warranted handlers registry warrant (s.withSettings settings) :=
  ⟨hs.registry_eq, hs.cache, hs.memo⟩

theorem record (e : SessionEvent) : Warranted handlers registry warrant (s.record e) :=
  ⟨hs.registry_eq, hs.cache, hs.memo⟩

theorem showTable (t : DispatchTable) :
    Warranted handlers registry warrant (showTable handlers t s) := by
  rw [Session.showTable]
  split
  · exact ⟨hs.registry_eq, hs.cache, hs.memo⟩
  · exact hs

theorem keep {key : MemoKey} (hwarrant : ∀ v, a = .ok v → warrant key v) :
    Warranted handlers registry warrant (s.keep key a) := by
  cases a with
  | error e => exact hs
  | ok v =>
      refine ⟨hs.registry_eq, hs.cache, List.forall_mem_cons.2 ⟨hwarrant v rfl, fun e he => ?_⟩⟩
      exact hs.memo e (List.mem_filter.1 he).1

/-- The table of a kind is found as it would be made, whichever tables the cache has. -/
theorem exists_resolve (kind : OperatorKind) :
    ∃ found c, s.cache.resolve handlers kind (s.registry.bindings kind) = (found, c) ∧
      found.map CachedTable.table =
        DispatchTable.build handlers kind (registry.bindings kind) ∧
      TableCache.Resolves handlers s.cache ⟨kind, s.registry.bindings kind⟩ found c ∧
      Warranted handlers registry warrant { s with cache := c } := by
  obtain ⟨rfl, hcache, hmemo⟩ := hs
  exact ⟨_, _, rfl, hcache.resolve_eq, TableCache.resolves _ _ _, rfl, hcache.resolve, hmemo⟩

/-- Without its table a question fails in a session that does not remember it, and the session
is as before. -/
theorem run_ask_of_build_error {e : PlanError} (hargs : checkArguments q = .ok ())
    (hnew : s.remembered? q.key = none)
    (he : DispatchTable.build handlers q.node.kind (registry.bindings q.node.kind) = .error e)
    (n : Nat) : (ask handlers (n + 1) q).run s = some (.error e, s) := by
  obtain ⟨found, c, hfound, htable, hresolves, -⟩ := hs.exists_resolve q.node.kind
  rw [he] at htable
  match found, htable with
  | .error _, rfl =>
    cases hresolves
    rw [run_ask_of_not_remembered hargs hnew, run_compute_of_error hfound]

/-- With its table, the handlers that the table has for the question are asked, and their answer
is kept. -/
theorem exists_run_ask {t : DispatchTable} (hargs : checkArguments q = .ok ())
    (hnew : s.remembered? q.key = none)
    (ht : DispatchTable.build handlers q.node.kind (registry.bindings q.node.kind) = .ok t) :
    ∃ s₀, Warranted handlers registry warrant s₀ ∧ s₀.asked = s.asked ∧ s₀.memo = s.memo ∧
      ∀ n, (ask handlers (n + 1) q).run s =
        (consult handlers (ask handlers n) q (t.handlersFor q.property)).run s₀ >>= fun p =>
          some (p.1, p.2.keep q.key p.1) := by
  obtain ⟨found, c, hfound, htable, -, hcached⟩ := hs.exists_resolve q.node.kind
  rw [ht] at htable
  match found, htable with
  | .ok found, rfl =>
    refine ⟨_, hcached.showTable found.table, asked_showTable _ _, memo_showTable _ _,
      fun n => ?_⟩
    rw [run_ask_of_not_remembered hargs hnew, run_compute_of_ok hfound, dispatch,
      if_pos (DispatchTable.kind_of_build ht).symm]

end Warranted

/-! ### Work that keeps a session warranted -/

variable {sort sort' : Answer → Prop} {x : SessionM Answer}

theorem ensures_pure (ha : sort a) : Ensures handlers registry warrant sort (pure a) := by
  intro s s' b hs hrun
  cases hrun
  exact ⟨hs, ha⟩

theorem Ensures.mono (hx : Ensures handlers registry warrant sort x)
    (himp : ∀ a, sort a → sort' a) : Ensures handlers registry warrant sort' x := by
  intro s s' a hs hrun
  obtain ⟨hs', ha⟩ := hx hs hrun
  exact ⟨hs', himp a ha⟩

theorem Ensures.bind {k : Answer → SessionM Answer}
    (hx : Ensures handlers registry warrant sort x)
    (hk : ∀ a, sort a → Ensures handlers registry warrant sort' (k a)) :
    Ensures handlers registry warrant sort' (x >>= k) := by
  intro s s' b hs hrun
  obtain ⟨⟨a, s₁⟩, hfirst, hrest⟩ := Option.bind_eq_some_iff.1 hrun
  obtain ⟨hs₁, ha⟩ := hx hs hfirst
  exact hk a ha hs₁ hrest

theorem Ensures.after_record (e : SessionEvent) (hx : Ensures handlers registry warrant sort x) :
    Ensures handlers registry warrant sort (modify (·.record e) >>= fun _ => x) :=
  fun _ _ _ hs hrun => hx (hs.record e) hrun

theorem ensures_consult {order : List HandlerId} (hnone : sort (.ok none))
    (hrun : ∀ h, Ensures handlers registry warrant sort (((handlers h).handle q).run respond)) :
    Ensures handlers registry warrant sort (consult handlers respond q order) := by
  induction order with
  | nil => exact ensures_pure hnone
  | cons h rest ih =>
      refine Ensures.after_record _ ((hrun h).bind ?_)
      rintro (e | _ | v) ha
      · exact ensures_pure ha
      · exact ih
      · exact ensures_pure ha

/-- The step: a question keeps the session warranted if the handlers do so when they are asked, and
if there is a warrant for what they answer. -/
theorem ensures_ask_succ
    (hrefused : ∀ e, checkArguments q = .error e → sort (.error e))
    (hrecalled : ∀ key v, warrant key v → (key == q.key) = true → sort (.ok v))
    (hunbuilt : ∀ e, checkArguments q = .ok () →
      DispatchTable.build handlers q.node.kind (registry.bindings q.node.kind) = .error e →
        sort (.error e))
    (hconsulted : ∀ t, checkArguments q = .ok () →
      DispatchTable.build handlers q.node.kind (registry.bindings q.node.kind) = .ok t →
        (∀ v, sort (.ok v) → warrant q.key v) ∧
        Ensures handlers registry warrant sort
          (consult handlers (ask handlers n) q (t.handlersFor q.property))) :
    Ensures handlers registry warrant sort (ask handlers (n + 1) q) := by
  intro s s' a hs hrun
  cases hargs : checkArguments q with
  | error e =>
      rw [run_ask_of_checkArguments hargs] at hrun
      cases hrun
      exact ⟨hs, hrefused e hargs⟩
  | ok u =>
      cases hv : s.remembered? q.key with
      | some v =>
          rw [run_ask_of_remembered hargs hv] at hrun
          cases hrun
          obtain ⟨e, he, hkey, rfl⟩ := exists_mem_of_remembered hv
          exact ⟨hs, hrecalled e.1 e.2 (hs.memo e he) hkey⟩
      | none =>
          cases hbuild : DispatchTable.build handlers q.node.kind
              (registry.bindings q.node.kind) with
          | error e =>
              rw [hs.run_ask_of_build_error hargs hv hbuild] at hrun
              cases hrun
              exact ⟨hs, hunbuilt e hargs hbuild⟩
          | ok t =>
              obtain ⟨hwarrant, hconsult⟩ := hconsulted t hargs hbuild
              obtain ⟨s₀, hs₀, -, -, hask⟩ := hs.exists_run_ask hargs hv hbuild
              rw [hask] at hrun
              obtain ⟨⟨b, s₁⟩, hasked, hkept⟩ := Option.bind_eq_some_iff.1 hrun
              cases hkept
              obtain ⟨hs₁, ha⟩ := hconsult hs₀ hasked
              exact ⟨hs₁.keep fun v hv => hwarrant v (hv ▸ ha), ha⟩

/-- What each step keeps is kept throughout. -/
theorem Arises.warranted {step : Session → Session → Prop}
    (warrant : Registry → MemoKey → Option Value → Prop)
    (hstep : ∀ {registry s s'}, Warranted handlers registry (warrant registry) s → step s s' →
      Warranted handlers registry (warrant registry) s') (hs : Arises handlers step s) :
    Warranted handlers s.registry (warrant s.registry) s := by
  induction hs with
  | start registry => exact .start TableCache.faithful_empty
  | share _ _ ih ih' => exact ih'.withCache ih.cache
  | withSettings settings _ ih => exact ih.withSettings settings
  | resolve _ hrun ih =>
      rw [run_resolve rfl] at hrun
      cases hrun
      exact ih.withCache ih.cache.resolve
  | step _ hmade ih =>
      have hs' := hstep ih hmade
      rwa [hs'.registry_eq]

end QueryPlan.Metadata.Session
