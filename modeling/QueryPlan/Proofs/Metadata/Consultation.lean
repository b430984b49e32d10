import QueryPlan.Proofs.Metadata.Routing
import QueryPlan.Proofs.Metadata.Session

/-!
# Which handlers a question is put to

A question that is not remembered is put to the handlers that serve its property on the node's
kind. They are asked in the order of their first bindings, each once, until one has a value or
fails. Where a binding of the kind has a handler that does not declare the node and the context
first, no question on a node of this kind is put to anybody.

The second part needs that no answer for such a node is remembered. What warrants an answer is
therefore that the kind of its node has a table. The handlers may do anything on the way there, for
what they declare is all that enters into the tables.
-/

namespace QueryPlan.Metadata

/-- The handlers with what they declare, but computing differently. -/
def Handlers.computing (handlers : Handlers) (handle : HandlerId → Question → Inquiry) :
    Handlers :=
  fun h => { handlers h with handle := handle h }

namespace DispatchTable

theorem routeAll_computing (handlers : Handlers) (handle : HandlerId → Question → Inquiry)
    (kind : OperatorKind) (providers : List HandlerId) (routes : Routes)
    (bindings : List Binding) :
    routeAll (handlers.computing handle) kind providers routes bindings =
      routeAll handlers kind providers routes bindings := by
  induction bindings generalizing routes with
  | nil => rfl
  | cons b rest ih =>
      rw [routeAll, routeAll, ih, ih]
      rfl

theorem build_computing (handlers : Handlers) (handle : HandlerId → Question → Inquiry)
    (kind : OperatorKind) (bindings : List Binding) :
    build (handlers.computing handle) kind bindings = build handlers kind bindings := by
  rw [build, build, routeAll_computing]

end DispatchTable

/-- A table was asked about a node of another kind. -/
def IsMismatch (a : Answer) : Prop := ∃ expected actual, a = .error (.kindMismatch expected actual)

/-- The inquiry asks about the given nodes only, and as long as it is told answers of one sort,
its own answer is of this sort. -/
inductive Inquiry.Obeys (nodes : Set Plan) (sort : Answer → Prop) : Inquiry → Prop where
  | answer {a : Answer} : sort a → Obeys nodes sort (.answer a)
  | ask {q : Question} {next : Answer → Inquiry} : q.node ∈ nodes →
    (∀ a, sort a → Obeys nodes sort (next a)) → Obeys nodes sort (.ask q next)

theorem Inquiry.AsksAbout.obeys {nodes : Set Plan} {i : Inquiry} (h : i.AsksAbout nodes) :
    i.Obeys nodes fun _ => True := by
  induction h with
  | answer => exact .answer trivial
  | ask hq _ ih => exact .ask hq fun a _ => ih a

namespace Session

variable {handlers : Handlers} {respond : Question → SessionM Answer} {q : Question}
  {s s' : Session} {order : List HandlerId} {a : Answer}

/-! ### One handler after the other -/

/-- Some handlers are asked the question one after the other, and answer so. -/
inductive Calls (handlers : Handlers) (respond : Question → SessionM Answer) (q : Question) :
    Session → List (HandlerId × Answer) → Session → Prop where
  | nil {s : Session} : Calls handlers respond q s [] s
  | cons {s s₁ s' : Session} {h : HandlerId} {a : Answer} {later : List (HandlerId × Answer)} :
    (((handlers h).handle q).run respond).run (s.record (.asked h q.key)) = some (a, s₁) →
    Calls handlers respond q s₁ later s' → Calls handlers respond q s ((h, a) :: later) s'

/-- Either all handlers of the order are called and do not know, and then nobody knows. Or they
are called up to the first one that has a value or fails, and that is the answer. -/
def Decides (order : List HandlerId) (calls : List (HandlerId × Answer)) (a : Answer) : Prop :=
  (calls = order.map (·, .ok none) ∧ a = .ok none) ∨
    ∃ before h after, order = before ++ h :: after ∧
      calls = before.map (·, .ok none) ++ [(h, a)] ∧ a ≠ .ok none

theorem decides_nil {calls : List (HandlerId × Answer)} :
    Decides [] calls a ↔ calls = [] ∧ a = .ok none := by
  simp [Decides]

theorem decides_cons {h : HandlerId} {calls : List (HandlerId × Answer)} :
    Decides (h :: order) calls a ↔ (calls = [(h, a)] ∧ a ≠ .ok none) ∨
      ∃ later, calls = (h, .ok none) :: later ∧ Decides order later a := by
  constructor
  · rintro (⟨rfl, rfl⟩ | ⟨before, h', after, horder, rfl, ha⟩)
    · exact .inr ⟨_, rfl, .inl ⟨rfl, rfl⟩⟩
    · cases before with
      | nil =>
          cases horder
          exact .inl ⟨rfl, ha⟩
      | cons first before =>
          cases horder
          exact .inr ⟨_, rfl, .inr ⟨before, h', after, rfl, rfl, ha⟩⟩
  · rintro (⟨rfl, ha⟩ | ⟨later, rfl, ⟨rfl, rfl⟩ | ⟨before, h', after, rfl, rfl, ha⟩⟩)
    · exact .inr ⟨[], h, order, rfl, rfl, ha⟩
    · exact .inl ⟨rfl, rfl⟩
    · exact .inr ⟨h :: before, h', after, rfl, rfl, ha⟩

/-- The answer is that nobody knows, or it is what a handler said that was called. -/
theorem Decides.eq_or_mem {calls : List (HandlerId × Answer)} (h : Decides order calls a) :
    a = .ok none ∨ ∃ handler, (handler, a) ∈ calls := by
  obtain ⟨-, ha⟩ | ⟨before, handler, after, -, rfl, -⟩ := h
  · exact .inl ha
  · exact .inr ⟨handler, List.mem_append_right _ (List.mem_singleton_self _)⟩

theorem run_consult_cons (h : HandlerId) (order : List HandlerId) (s : Session) :
    (consult handlers respond q (h :: order)).run s =
      (((handlers h).handle q).run respond).run (s.record (.asked h q.key)) >>= fun
        | (.ok none, s₁) => (consult handlers respond q order).run s₁
        | (a, s₁) => some (a, s₁) := by
  simp only [consult, StateT.run_bind, StateT.run_modify, pure_bind, Option.bind_eq_bind]
  refine Option.bind_congr fun p _ => ?_
  obtain ⟨e | _ | v, s₁⟩ := p
  · rfl
  · rfl
  · rfl

theorem run_consult : (consult handlers respond q order).run s = some (a, s') ↔
    ∃ calls, Calls handlers respond q s calls s' ∧ Decides order calls a := by
  induction order generalizing s with
  | nil =>
      constructor
      · rintro hrun
        cases hrun
        exact ⟨[], .nil, decides_nil.2 ⟨rfl, rfl⟩⟩
      · rintro ⟨calls, hcalls, hdecides⟩
        obtain ⟨rfl, rfl⟩ := decides_nil.1 hdecides
        cases hcalls
        rfl
  | cons h order ih =>
      rw [run_consult_cons, Option.bind_eq_bind, Option.bind_eq_some_iff]
      constructor
      · rintro ⟨⟨e | _ | v, s₁⟩, hfirst, hrest⟩
        · cases hrest
          exact ⟨_, .cons hfirst .nil, decides_cons.2 (.inl ⟨rfl, nofun⟩)⟩
        · obtain ⟨calls, hcalls, hdecides⟩ := ih.1 hrest
          exact ⟨_, .cons hfirst hcalls, decides_cons.2 (.inr ⟨calls, rfl, hdecides⟩)⟩
        · cases hrest
          exact ⟨_, .cons hfirst .nil, decides_cons.2 (.inl ⟨rfl, nofun⟩)⟩
      · rintro ⟨calls, hcalls, hdecides⟩
        obtain ⟨rfl, ha⟩ | ⟨later, rfl, hlater⟩ := decides_cons.1 hdecides
        · cases hcalls with
          | cons hfirst hrest =>
              cases hrest
              refine ⟨_, hfirst, ?_⟩
              match a, ha with
              | .error e, _ => rfl
              | .ok (some v), _ => rfl
        · cases hcalls with
          | cons hfirst hrest => exact ⟨_, hfirst, ih.2 ⟨later, hrest, hlater⟩⟩

/-- The handlers are called one after the other, and what is decided is kept. -/
theorem run_consult_keep_iff :
    ((consult handlers respond q order).run s >>= fun p => some (p.1, p.2.keep q.key p.1)) =
        some (a, s') ↔
      ∃ calls s₁, Calls handlers respond q s calls s₁ ∧ Decides order calls a ∧
        s' = s₁.keep q.key a := by
  rw [Option.bind_eq_bind, Option.bind_eq_some_iff]
  constructor
  · rintro ⟨⟨b, s₁⟩, hconsult, hkeep⟩
    obtain ⟨calls, hcalls, hdecides⟩ := run_consult.1 hconsult
    cases hkeep
    exact ⟨calls, s₁, hcalls, hdecides, rfl⟩
  · rintro ⟨calls, s₁, hcalls, hdecides, rfl⟩
    exact ⟨(a, s₁), run_consult.2 ⟨calls, hcalls, hdecides⟩, rfl⟩

/-! ### Answers for nodes that have their table -/

variable {nodes : Set Plan} {registry : Registry} {sort : Answer → Prop} {n : Nat}

/-- The node of the key is of a kind that has its table. -/
def Tabled (handlers : Handlers) (nodes : Set Plan) (registry : Registry) (key : MemoKey)
    (_ : Option Value) : Prop :=
  ∃ p ∈ nodes, p.id = key.node ∧
    ∃ t, DispatchTable.build handlers p.kind (registry.bindings p.kind) = .ok t

/-- The tables in the cache are those that would be made, and answers are remembered only for
nodes of a kind that has its table. -/
abbrev Sound (handlers : Handlers) (nodes : Set Plan) (registry : Registry) : Session → Prop :=
  Warranted handlers registry (Tabled handlers nodes registry)

/-- How the handlers compute does not matter for this. -/
theorem Sound.computing (handle : HandlerId → Question → Inquiry) :
    Sound (handlers.computing handle) nodes registry s ↔ Sound handlers nodes registry s := by
  constructor
  · rintro ⟨hregistry, hcache, hmemo⟩
    simp only [TableCache.Faithful, Tabled, DispatchTable.build_computing] at hcache hmemo
    exact ⟨hregistry, hcache, hmemo⟩
  · rintro ⟨hregistry, hcache, hmemo⟩
    refine ⟨hregistry, ?_, ?_⟩
    · simpa only [TableCache.Faithful, DispatchTable.build_computing] using hcache
    · simpa only [Tabled, DispatchTable.build_computing] using hmemo

/-! ### What a question does -/

theorem not_isMismatch_ok (v : Option Value) : ¬ IsMismatch (.ok v) := by
  rintro ⟨_, _, h⟩
  cases h

theorem not_isMismatch_of_checkArguments {e : PlanError} (h : checkArguments q = .error e) :
    ¬ IsMismatch (.error e) := by
  rw [checkArguments] at h
  split at h
  · cases h
  · cases h
    rintro ⟨_, _, h⟩
    cases h

theorem not_isMismatch_of_build {kind : OperatorKind} {bindings : List Binding} {e : PlanError}
    (h : DispatchTable.build handlers kind bindings = .error e) : ¬ IsMismatch (.error e) := by
  by_cases hall : ∀ b ∈ bindings, b.Declares handlers
  · obtain ⟨t, ht, -⟩ := DispatchTable.exists_build kind hall
    rw [ht] at h
    cases h
  · simp only [not_forall, exists_prop] at hall
    obtain ⟨_, _, _, table, -, -, -, herror⟩ := DispatchTable.exists_build_error kind hall
    rw [herror] at h
    cases h
    rintro ⟨_, _, h⟩
    cases h

section Ask

variable (hsort : ∀ a, ¬ IsMismatch a → sort a)
  (hobeys : ∀ h q, q.node ∈ nodes → ((handlers h).handle q).Obeys nodes sort)

theorem ensures_run {warrant : MemoKey → Option Value → Prop} {i : Inquiry}
    (hi : i.Obeys nodes sort)
    (hrespond : ∀ q, q.node ∈ nodes → Ensures handlers registry warrant sort (respond q)) :
    Ensures handlers registry warrant sort (i.run respond) := by
  induction hi with
  | answer ha => exact ensures_pure ha
  | @ask q next hq _ ih => exact (hrespond q hq).bind ih

include hsort hobeys in
/-- A question leaves the session sound. If no handler makes up a mismatch, none arises. -/
theorem ensures_ask (hq : q.node ∈ nodes) :
    Ensures handlers registry (Tabled handlers nodes registry) sort (ask handlers n q) := by
  induction n generalizing q with
  | zero =>
      intro s s' a hs hrun
      cases hrun
  | succ n ih =>
      have hok (v : Option Value) : sort (.ok v) := hsort _ (not_isMismatch_ok v)
      refine ensures_ask_succ (fun e hargs => hsort _ (not_isMismatch_of_checkArguments hargs))
        (fun key v _ _ => hok v) (fun e _ hbuild => hsort _ (not_isMismatch_of_build hbuild))
        fun t _ hbuild => ⟨fun v _ => ⟨q.node, hq, rfl, t, hbuild⟩, ?_⟩
      exact ensures_consult (hok none) fun h => ensures_run (hobeys h q hq) fun r hr => ih hr

end Ask

/-! ### The sessions there can be -/

/-- What can happen in the midst of a question: a table is shown, it is recorded what happens, and
a question about one of the given nodes is answered. From one question to the next the handlers may
compute differently. -/
inductive Proceeds (handlers : Handlers) (nodes : Set Plan) : Session → Session → Prop where
  | showTable {s : Session} (t : DispatchTable) : Proceeds handlers nodes s (showTable handlers t s)
  | record {s : Session} (e : SessionEvent) : Proceeds handlers nodes s (s.record e)
  | ask {s s' : Session} {n : Nat} {q : Question} {a : Answer}
      (handle : HandlerId → Question → Inquiry) :
    (∀ h r, r.node ∈ nodes → (handle h r).AsksAbout nodes) → q.node ∈ nodes →
    (ask (handlers.computing handle) n q).run s = some (a, s') → Proceeds handlers nodes s s'

/-- The sessions there can be while questions are asked about the given nodes, also in the midst
of a question. -/
abbrev Reached (handlers : Handlers) (nodes : Set Plan) : Session → Prop :=
  Arises handlers (Proceeds handlers nodes)

theorem Reached.sound (hs : Reached handlers nodes s) :
    Sound handlers nodes s.registry s := by
  refine hs.warranted (Tabled handlers nodes) fun {registry s s'} hs hstep => ?_
  cases hstep with
  | showTable t => exact hs.showTable t
  | record e => exact hs.record e
  | @ask _ n q _ handle hasks hq hrun =>
      have hensures : Ensures (handlers.computing handle) registry
          (Tabled (handlers.computing handle) nodes registry) (fun _ => True)
          (Session.ask (handlers.computing handle) n q) :=
        ensures_ask (fun _ _ => trivial) (fun h r hr => (hasks h r hr).obeys) hq
      exact (Sound.computing handle).1 (hensures ((Sound.computing handle).2 hs) hrun).1

/-- An answer is remembered only if the kind of its node has a table. -/
theorem Sound.exists_build_of_remembered (hs : Sound handlers nodes registry s)
    (hids : nodes.InjOn Plan.id) (hq : q.node ∈ nodes) {v : Option Value}
    (hv : s.remembered? q.key = some v) :
    ∃ t, DispatchTable.build handlers q.node.kind (registry.bindings q.node.kind) = .ok t := by
  obtain ⟨e, he, hbeq, -⟩ := exists_mem_of_remembered hv
  obtain ⟨p, hp, hid, hbuild⟩ := hs.memo e he
  have hnode : e.1.node = q.node.id := beq_iff_eq.1 (Bool.and_eq_true_iff.1 hbeq).1
  rwa [hids hp hq (hid.trans hnode)] at hbuild

/-- A question with fitting arguments, in a session with some registrations. If every handler
that is bound for the node's kind declares the node and the context first and the question is not
remembered, the handlers that serve the property are asked, each once and the earliest bound
first, until one has a value or fails, which is the answer. No mismatch of a table and a node
arises unless a handler makes one up. If some handler does not declare the node and the context,
the question fails, the earliest such binding is reported and nobody is asked. -/
theorem Reached.ask_routed {calls : List Registration} {bindings : List Binding}
    (hs : Reached handlers nodes s) (hregistry : s.registry = .ofRegistrations calls)
    (hbindings : bindings = calls.filterMap (Registration.binding? q.node.kind))
    (hids : nodes.InjOn Plan.id) (hq : q.node ∈ nodes) (hargs : checkArguments q = .ok ()) :
    ((∀ b ∈ bindings, b.Declares handlers) → s.remembered? q.key = none →
      ∃ order s₀, DispatchTable.Asks handlers bindings q.property order ∧
        s₀.asked = s.asked ∧ s₀.memo = s.memo ∧
        (∀ n a s', (Session.ask handlers (n + 1) q).run s = some (a, s') ↔
          ∃ answers s₁, Calls handlers (Session.ask handlers n) q s₀ answers s₁ ∧
            Decides order answers a ∧ s' = s₁.keep q.key a) ∧
        ((∀ h r, r.node ∈ nodes →
            ((handlers h).handle r).Obeys nodes fun a => ¬ IsMismatch a) →
          ∀ n a s', (Session.ask handlers n q).run s = some (a, s') → ¬ IsMismatch a)) ∧
    ((∃ b ∈ bindings, ¬ b.Declares handlers) →
      ∃ before b after table, bindings = before ++ b :: after ∧
        (∀ b' ∈ before, b'.Declares handlers) ∧ ¬ b.Declares handlers ∧
        ∀ n, (Session.ask handlers (n + 1) q).run s = some (.error (.signatureMalformed q.node.kind
          (handlers b.handler).name ((handlers b.handler).signature b.property) b.property
          table), s)) := by
  have hsound := hs.sound
  have hbound : s.registry.bindings q.node.kind = bindings := by
    rw [hregistry, Registry.bindings_ofRegistrations, hbindings]
  constructor
  · intro hall hnew
    obtain ⟨t, ht, -, hasks⟩ := DispatchTable.exists_build q.node.kind hall
    obtain ⟨s₀, -, hasked, hmemo, hask⟩ := hsound.exists_run_ask hargs hnew (hbound ▸ ht)
    refine ⟨_, s₀, hasks q.property, hasked, hmemo, fun n a s' => ?_, fun hobeys n a s' hrun =>
      (ensures_ask (fun _ => id) hobeys hq hsound hrun).2⟩
    rw [hask]
    exact run_consult_keep_iff
  · intro hsome
    obtain ⟨before, b, after, table, hsplit, hbefore, hb, herror⟩ :=
      DispatchTable.exists_build_error q.node.kind hsome
    have hnew : s.remembered? q.key = none := by
      refine Option.eq_none_iff_forall_ne_some.2 fun v hv => ?_
      obtain ⟨t, ht⟩ := hsound.exists_build_of_remembered hids hq hv
      rw [hbound, herror] at ht
      cases ht
    exact ⟨before, b, after, table, hsplit, hbefore, hb,
      hsound.run_ask_of_build_error hargs hnew (hbound ▸ herror)⟩

end Session

/-! All kinds are bound to a handler that asks about the first input, and scans to one that does
not declare what it is given. -/

namespace UndeclaredScan

def handlers (h : HandlerId) : Handler :=
  if h = ⟨0⟩ then ⟨"first input", Property.signature, FirstInput.inquire⟩
  else ⟨"undeclared", fun _ => [], fun _ => .value none⟩

def registrations : List Registration :=
  [.every ⟨.columnUniqueness, ⟨0⟩⟩, .one .scan ⟨.rowCount, ⟨1⟩⟩]

theorem asksAbout_handlers {nodes : Set Plan} (hinputs : ∀ p ∈ nodes, ∀ i ∈ p.inputs, i ∈ nodes)
    (h : HandlerId) (q : Question) (hq : q.node ∈ nodes) :
    ((handlers h).handle q).AsksAbout nodes := by
  rw [handlers]
  split
  · exact (FirstInput.pure_handlers hinputs h).asksAbout q hq
  · exact .answer

/-- The topmost node is put to the handler that asks about the first input, down to the scan,
which fails without anybody being asked. -/
theorem ask_routed_shown :
    ∃ (nodes : Set Plan) (s : Session), nodes.InjOn Plan.id ∧ s.Reached handlers nodes ∧
      s.asked.length = 3 ∧ SwappedStars.shown ∈ nodes ∧ SwappedStars.table 0 "a" ∈ nodes ∧
      (∃ order, DispatchTable.Asks handlers [⟨.columnUniqueness, ⟨0⟩⟩] .columnUniqueness order) ∧
      ∃ table, ∀ n, (Session.ask handlers (n + 1)
        (FirstInput.uniqueness (SwappedStars.table 0 "a"))).run s =
          some (.error (.signatureMalformed .scan "undeclared" [] .rowCount table), s) := by
  obtain ⟨nodes, hshown, hids, hinputs⟩ := SwappedStars.constructed_shown.exists_nodes
  have hswapped := hinputs _ hshown _ (List.mem_singleton_self _)
  have hjoined := hinputs _ hswapped _ (List.mem_singleton_self _)
  have hscan := hinputs _ hjoined _ List.mem_cons_self
  have hrun : ((Session.ask handlers 5 (FirstInput.uniqueness SwappedStars.shown)).run
      (.start (.ofRegistrations registrations) .empty)).map
        (fun p => (p.2.asked.length, p.2.memo.isEmpty)) = some (3, true) := by decide +kernel
  obtain ⟨⟨a, s⟩, hrun, hcounts⟩ := Option.map_eq_some_iff.1 hrun
  obtain ⟨hlength, hmemo⟩ := Prod.mk.inj hcounts
  have hstart : Session.Reached handlers nodes (.start (.ofRegistrations registrations)
    .empty) := .start _
  have hasks := asksAbout_handlers hinputs
  have hreached : Session.Reached handlers nodes s :=
    .step hstart (.ask (fun h => (handlers h).handle) hasks (q := FirstInput.uniqueness _) hshown
      hrun)
  have hregistry : s.registry = .ofRegistrations registrations :=
    (Session.ensures_ask (fun _ _ => trivial) (fun h q hq => (hasks h q hq).obeys)
      (q := FirstInput.uniqueness _) hshown hstart.sound hrun).1.registry_eq
  have hnew : s.remembered? (FirstInput.uniqueness SwappedStars.shown).key = none := by
    rw [Session.remembered?, List.isEmpty_iff.1 hmemo]
    rfl
  obtain ⟨hrouted, -⟩ := hreached.ask_routed (q := FirstInput.uniqueness SwappedStars.shown)
    hregistry rfl hids hshown rfl
  obtain ⟨-, hrefused⟩ := hreached.ask_routed
    (q := FirstInput.uniqueness (SwappedStars.table 0 "a")) hregistry rfl hids hscan rfl
  obtain ⟨order, -, horder, -⟩ := hrouted (by decide) hnew
  refine ⟨_, s, hids, hreached, hlength, hshown, hscan, ⟨order, horder⟩, ?_⟩
  obtain ⟨before, b, after, table, hsplit, -, hb, hfails⟩ := hrefused (by decide)
  have hmem : b ∈ registrations.filterMap (Registration.binding? .scan) :=
    hsplit ▸ List.mem_append_right before List.mem_cons_self
  obtain rfl | rfl : b = ⟨.columnUniqueness, ⟨0⟩⟩ ∨ b = ⟨.rowCount, ⟨1⟩⟩ := by
    simpa [registrations, Registration.binding?] using hmem
  · exact absurd (by decide) hb
  · exact ⟨table, hfails⟩

end UndeclaredScan

end QueryPlan.Metadata
