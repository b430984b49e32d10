import QueryPlan.Proofs.Metadata.Evaluation
import QueryPlan.Proofs.Metadata.Invariant
import QueryPlan.Proofs.Plan.Construction

/-!
# What a session answers

A session remembers answers and shares dispatch tables with other sessions. Neither shows in
what it answers: with pure handlers a question gets the answer that it comes to, and an answer
that is reached at all is reached in every session.

What warrants a remembered answer is that some question of its key comes to it. The nodes that are
asked about can be told by their identities, so a question that finds a remembered answer compares
equal to that one. Work in a session follows an evaluation if it keeps all answers warranted and
gives the same ones, and the questions that a handler asks are followed one after the other.
-/

namespace QueryPlan.Metadata

namespace Session

variable {handlers : Handlers} {nodes : Set Plan} {registry : Registry} {s s' : Session}
  {q q' : Question} {a b : Answer}

/-- Some question of the key, about one of the given nodes, comes to the answer. -/
def Evaluated (handlers : Handlers) (nodes : Set Plan) (registry : Registry) (key : MemoKey)
    (v : Option Value) : Prop :=
  ∃ q n, q.node ∈ nodes ∧ q.key = key ∧ evaluate handlers registry n q = some (.ok v)

/-- The tables in the cache are those that would be made, and the remembered answers are those
that the questions come to. -/
abbrev Consistent (handlers : Handlers) (nodes : Set Plan) (registry : Registry) :
    Session → Prop :=
  Warranted handlers registry (Evaluated handlers nodes registry)

/-- The work keeps a session consistent, answers what the evaluation reaches at some depth, and
succeeds if it reaches this at the depth `n` already. -/
structure Follows (handlers : Handlers) (nodes : Set Plan) (registry : Registry) (n : Nat)
    (x : SessionM Answer) (f : Nat → Option Answer) : Prop where
  sound : Ensures handlers registry (Evaluated handlers nodes registry)
    (fun a => ∃ m, f m = some a) x
  complete : ∀ {s a}, Consistent handlers nodes registry s → f n = some a →
    ∃ s', x.run s = some (a, s')

/-- A question about one of the given nodes is asked and answered. -/
inductive Answers (handlers : Handlers) (nodes : Set Plan) : Session → Session → Prop where
  | ask {s s' : Session} {n : Nat} {q : Question} {a : Answer} : q.node ∈ nodes →
    (ask handlers n q).run s = some (a, s') → Answers handlers nodes s s'

/-- The sessions there can be while questions are asked about the given nodes. -/
abbrev Lived (handlers : Handlers) (nodes : Set Plan) : Session → Prop :=
  Arises handlers (Answers handlers nodes)

/-- Asked in the session, the question is answered so. -/
def Returns (handlers : Handlers) (s : Session) (q : Question) (a : Answer) : Prop :=
  ∃ n s', (ask handlers n q).run s = some (a, s')

section Follows

variable {n : Nat} {x : SessionM Answer} {f : Nat → Option Answer}

theorem follows_pure (a : Answer) :
    Follows handlers nodes registry n (pure a) fun _ => some a where
  sound := ensures_pure ⟨0, rfl⟩
  complete _ hf := by
    cases hf
    exact ⟨_, rfl⟩

theorem Follows.bind {k : Answer → SessionM Answer} {g : Answer → Nat → Option Answer}
    (hx : Follows handlers nodes registry n x f) (hf : Stable f)
    (hk : ∀ a, Follows handlers nodes registry n (k a) (g a)) (hg : ∀ a, Stable (g a)) :
    Follows handlers nodes registry n (x >>= k) fun m => f m >>= fun a => g a m where
  sound := by
    refine hx.sound.bind fun a hfirst => (hk a).sound.mono fun b hrest => ?_
    obtain ⟨m, hm⟩ := hfirst
    obtain ⟨m', hm'⟩ := hrest
    exact ⟨max m m', Option.bind_eq_some_iff.2
      ⟨a, hf (Nat.le_max_left m m') hm, hg a (Nat.le_max_right m m') hm'⟩⟩
  complete hs hreached := by
    obtain ⟨a, hfirst, hrest⟩ := Option.bind_eq_some_iff.1 hreached
    obtain ⟨s₁, hrun⟩ := hx.complete hs hfirst
    obtain ⟨s', hrun'⟩ := (hk a).complete (hx.sound hs hrun).1 hrest
    exact ⟨s', Option.bind_eq_some_iff.2 ⟨(a, s₁), hrun, hrun'⟩⟩

theorem Follows.after_record (e : SessionEvent) (hx : Follows handlers nodes registry n x f) :
    Follows handlers nodes registry n (modify (·.record e) >>= fun _ => x) f where
  sound := hx.sound.after_record e
  complete hs hreached := hx.complete (hs.record e) hreached

end Follows

/-- Questions compare equal if their keys do, as the nodes can be told by their identities. -/
theorem like_of_key_beq (hids : nodes.InjOn Plan.id) (hq : q.node ∈ nodes)
    (hq' : q'.node ∈ nodes)
    (hkey : (q.key == q'.key) = true) : q.Like q' := by
  obtain ⟨hid, hrest⟩ := Bool.and_eq_true_iff.1 hkey
  obtain ⟨hproperty, hargs⟩ := Bool.and_eq_true_iff.1 hrest
  exact ⟨hids hq hq' (beq_iff_eq.1 hid), beq_iff_eq.1 hproperty, hargs⟩

section Handlers

variable {n : Nat} {respond : Question → SessionM Answer} (hrespond : ∀ q, q.node ∈ nodes →
  Follows handlers nodes registry n (respond q) fun m => evaluate handlers registry m q)

include hrespond

theorem follows_run {i : Inquiry} (hi : i.AsksAbout nodes) :
    Follows handlers nodes registry n (i.run respond)
      fun m => i.run (evaluate handlers registry m) := by
  induction hi with
  | answer => exact follows_pure _
  | @ask q next hq _ ih =>
      exact (hrespond q hq).bind (stable_evaluate q) ih fun a => stable_run (next a)

theorem follows_consult (hpure : ∀ h, (handlers h).Pure nodes) (hq : q.node ∈ nodes)
    (hs : List HandlerId) :
    Follows handlers nodes registry n (consult handlers respond q hs)
      fun m => consultAll handlers (evaluate handlers registry m) q hs := by
  induction hs with
  | nil => exact follows_pure _
  | cons h rest ih =>
      refine Follows.after_record _ ?_
      refine (follows_run hrespond ((hpure h).asksAbout q hq)).bind (stable_run _) ?_ ?_
      · rintro (e | _ | v)
        · exact follows_pure _
        · exact ih
        · exact follows_pure _
      · rintro (e | _ | v)
        · exact fun _ _ _ _ hm => hm
        · exact stable_consultAll q rest
        · exact fun _ _ _ _ hm => hm

end Handlers

section Pure

variable (hids : nodes.InjOn Plan.id) (hpure : ∀ h, (handlers h).Pure nodes)

include hids hpure

/-- What is remembered under the key of a question is what the question comes to. -/
theorem Evaluated.exists_evaluate {key : MemoKey} {v : Option Value}
    (h : Evaluated handlers nodes registry key v) (hq : q.node ∈ nodes)
    (hkey : (key == q.key) = true) : ∃ n, evaluate handlers registry n q = some (.ok v) := by
  obtain ⟨q', n, hq', rfl, hvalue⟩ := h
  have hlike : q'.Like q := like_of_key_beq hids hq' hq hkey
  exact ⟨n, hlike.evaluate_eq hpure n ▸ hvalue⟩

/-- The questions that handlers ask are answered with one level of depth less. -/
theorem follows_ask {n : Nat} (hq : q.node ∈ nodes) :
    Follows handlers nodes registry n (ask handlers n q)
      fun m => evaluate handlers registry m q := by
  induction n generalizing q with
  | zero =>
      refine ⟨fun _ _ _ _ hrun => ?_, fun _ hreached => ?_⟩
      · cases hrun
      · cases hreached
  | succ n ih =>
      have hconsult (t : DispatchTable) :=
        follows_consult (fun r hr => ih hr) hpure hq (t.handlersFor q.property)
      constructor
      case sound =>
        refine ensures_ask_succ (fun e hargs => ⟨1, evaluate_of_checkArguments hargs⟩)
          (fun key v hv hkey => hv.exists_evaluate hids hpure hq hkey)
          (fun e hargs hbuild => ⟨1, evaluate_of_build_error hargs hbuild⟩)
          fun t hargs hbuild => ⟨fun v ⟨m, hm⟩ => ⟨q, m, hq, rfl, hm⟩, ?_⟩
        refine (hconsult t).sound.mono fun a ⟨m, hm⟩ => ⟨m + 1, ?_⟩
        rw [evaluate_of_build hargs hbuild, hm]
      case complete =>
        intro s a hs hreached
        cases hargs : checkArguments q with
        | error e =>
            rw [evaluate_of_checkArguments hargs] at hreached
            cases hreached
            exact ⟨s, run_ask_of_checkArguments hargs⟩
        | ok u =>
            cases hv : s.remembered? q.key with
            | some v =>
                obtain ⟨e, he, hkey, rfl⟩ := exists_mem_of_remembered hv
                obtain ⟨m, hm⟩ := (hs.memo e he).exists_evaluate hids hpure hq hkey
                rw [run_ask_of_remembered hargs hv, (stable_evaluate q).unique hreached hm]
                exact ⟨s, rfl⟩
            | none =>
                cases hbuild : DispatchTable.build handlers q.node.kind
                    (registry.bindings q.node.kind) with
                | error e =>
                    rw [evaluate_of_build_error hargs hbuild] at hreached
                    cases hreached
                    exact ⟨s, hs.run_ask_of_build_error hargs hv hbuild n⟩
                | ok t =>
                    obtain ⟨s₀, hs₀, -, -, hask⟩ := hs.exists_run_ask hargs hv hbuild
                    rw [evaluate_of_build hargs hbuild] at hreached
                    obtain ⟨s₁, hasked⟩ := (hconsult t).complete hs₀ hreached
                    rw [hask, hasked]
                    exact ⟨_, rfl⟩

/-- A consistent session answers a question if it comes to something, and with that. -/
theorem Consistent.returns_iff (hs : Consistent handlers nodes registry s)
    (hq : q.node ∈ nodes) :
    s.Returns handlers q a ↔ ∃ n, evaluate handlers registry n q = some a := by
  constructor
  · rintro ⟨n, s', hrun⟩
    exact ((follows_ask hids hpure hq).sound hs hrun).2
  · rintro ⟨n, hn⟩
    obtain ⟨s', hrun⟩ := (follows_ask hids hpure hq).complete hs hn
    exact ⟨n, s', hrun⟩

theorem Lived.consistent (hs : Lived handlers nodes s) :
    Consistent handlers nodes s.registry s := by
  refine hs.warranted (Evaluated handlers nodes) fun hs hstep => ?_
  cases hstep with
  | ask hq hrun => exact ((follows_ask hids hpure hq).sound hs hrun).1

/-- Whatever a session and the sessions it shares its tables with have been asked before, with
pure handlers it answers a question as a session does that has answered nothing and shares
nothing: it answers if that one does, and with the same value or failure. -/
theorem Lived.returns_iff_start (hs : Lived handlers nodes s) (hq : q.node ∈ nodes) :
    (∀ a, s.Returns handlers q a ↔ (Session.start s.registry .empty).Returns handlers q a) ∧
      ∀ a b, s.Returns handlers q a →
        (Session.start s.registry .empty).Returns handlers q b → a = b := by
  have hs' := hs.consistent hids hpure
  have hfresh : Consistent handlers nodes s.registry (Session.start s.registry .empty) :=
    .start TableCache.faithful_empty
  refine ⟨fun a => (hs'.returns_iff hids hpure hq).trans (hfresh.returns_iff hids hpure hq).symm,
    fun a b ha hb => ?_⟩
  obtain ⟨m, hm⟩ := (hs'.returns_iff hids hpure hq).1 ha
  obtain ⟨n, hn⟩ := (hfresh.returns_iff hids hpure hq).1 hb
  exact (stable_evaluate q).unique hm hn

end Pure

end Session

/-! A handler that knows about leaves and takes over what is known about the first input. -/

namespace FirstInput

def inquire (q : Question) : Inquiry :=
  match q.node.inputs with
  | [] => .value (some (.bool true))
  | i :: _ => .ask ⟨q.property, i, q.args⟩ .answer

def handlers : Handlers := fun _ => ⟨"first input", Property.signature, inquire⟩

def registry : Registry := Registry.empty.registerAll ⟨.columnUniqueness, ⟨0⟩⟩

def uniqueness (node : Plan) : Question := ⟨.columnUniqueness, node, [.columns [0], .flag true]⟩

theorem pure_handlers {nodes : Set Plan} (hinputs : ∀ p ∈ nodes, ∀ i ∈ p.inputs, i ∈ nodes)
    (h : HandlerId) : (handlers h).Pure nodes where
  asksAbout q hq := by
    change (inquire q).AsksAbout nodes
    rw [inquire]
    cases hnode : q.node.inputs with
    | nil => exact .answer
    | cons i rest =>
        have hi : i ∈ nodes := hinputs _ hq i (hnode ▸ List.mem_cons_self)
        exact .ask hi fun _ => .answer
  run_eq q q' hlike respond hrespond := by
    change (inquire q).run respond = (inquire q').run respond
    rw [inquire, inquire, hlike.node_eq]
    cases q'.node.inputs with
    | nil => rfl
    | cons i rest =>
        have hask : respond ⟨q.property, i, q.args⟩ = respond ⟨q'.property, i, q'.args⟩ :=
          hrespond _ _ ⟨rfl, hlike.property_eq, hlike.args_eq⟩
        exact congrArg (Option.bind · fun a => (Inquiry.answer a).run respond) hask

/-- A session that was asked about the topmost node remembers an answer for each node on the way
to the first leaf, and asked again it answers as a fresh one does. -/
theorem returns_iff_start_shown :
    ∃ (nodes : Set Plan) (s : Session) (a : Answer), nodes.InjOn Plan.id ∧
      SwappedStars.shown ∈ nodes ∧ s.Lived handlers nodes ∧ s.memoSize = 4 ∧
      s.Returns handlers (uniqueness SwappedStars.shown) a := by
  obtain ⟨nodes, hshown, hids, hinputs⟩ := SwappedStars.constructed_shown.exists_nodes
  have hmem : (uniqueness SwappedStars.shown).node ∈ nodes := hshown
  have hpure : ∀ h, (handlers h).Pure nodes := pure_handlers hinputs
  have hmemo : ((Session.ask handlers 5 (uniqueness SwappedStars.shown)).run
      (.start registry .empty)).map (fun p => p.2.memoSize) = some 4 := by decide +kernel
  obtain ⟨⟨a, s⟩, hrun, hsize⟩ := Option.map_eq_some_iff.1 hmemo
  have hlived : Session.Lived handlers nodes s :=
    .step (.start registry) (.ask hmem hrun)
  obtain ⟨hiff, -⟩ := hlived.returns_iff_start hids hpure hmem
  have hregistry : s.registry = registry :=
    ((Session.follows_ask hids hpure hmem).sound (.start TableCache.faithful_empty)
      hrun).1.registry_eq
  refine ⟨nodes, s, a, hids, hmem, hlived, hsize, (hiff a).2 ?_⟩
  rw [hregistry]
  exact ⟨5, s, hrun⟩

end FirstInput

end QueryPlan.Metadata
