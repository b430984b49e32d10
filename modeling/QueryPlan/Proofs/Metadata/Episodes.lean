import QueryPlan.Proofs.Metadata.Consultation

/-!
# What happens while a question is answered

A question leads to further questions, and these to others. An episode is the whole of this: the
question, the session before and after, the answer, how it came about, and the episodes of the
questions that were asked on the way. Whatever is asked in a session and answered has its episode.

With pure handlers no question leads back to itself. For a question comes to something at a least
depth, and every question that is asked on the way to it does so at a smaller one. Questions that
compare equal come to the same at the same depth.
-/

namespace QueryPlan.Metadata

/-- How a question came to its answer. -/
inductive Course where
  /-- The arguments do not fit the property. -/
  | refused
  /-- The answer was remembered. -/
  | recalled
  /-- There is no dispatch table for the kind of the node. -/
  | unbuilt
  /-- The dispatch table is one for another kind. -/
  | mismatched
  /-- The handlers were asked. -/
  | consulted
  deriving DecidableEq

/-- A question is asked and answered. -/
structure Episode where
  question : Question
  before : Session
  /-- The episodes on the way to the answer, in the order in which they ended. -/
  inner : List Episode
  course : Course
  answer : Answer
  after : Session

namespace Session

/-- An inquiry is followed, each of its questions in an episode of the given sort. -/
inductive Pursues (sort : Episode → Prop) : Inquiry → Session → List Episode → Answer → Session →
    Prop where
  | answer {s : Session} {a : Answer} : Pursues sort (.answer a) s [] a s
  | ask {E : Episode} {next : Answer → Inquiry} {es : List Episode} {a : Answer} {s' : Session} :
    sort E → Pursues sort (next E.answer) E.after es a s' →
    Pursues sort (.ask E.question next) E.before (E.inner ++ E :: es) a s'

/-- Handlers are asked in turn, until one has a value or fails. -/
inductive Consults (handlers : Handlers) (sort : Episode → Prop) (q : Question) :
    List HandlerId → Session → List Episode → Answer → Session → Prop where
  | nil {s : Session} : Consults handlers sort q [] s [] (.ok none) s
  | next {h : HandlerId} {rest : List HandlerId} {s s₁ s' : Session} {es es' : List Episode}
      {a : Answer} :
    Pursues sort ((handlers h).handle q) (s.record (.asked h q.key)) es (.ok none) s₁ →
    Consults handlers sort q rest s₁ es' a s' →
    Consults handlers sort q (h :: rest) s (es ++ es') a s'
  | decided {h : HandlerId} {rest : List HandlerId} {s s' : Session} {es : List Episode}
      {a : Answer} :
    Pursues sort ((handlers h).handle q) (s.record (.asked h q.key)) es a s' → a ≠ .ok none →
    Consults handlers sort q (h :: rest) s es a s'

/-- An episode takes place, with the questions on the way in episodes of the given sort. -/
inductive Unfolds (handlers : Handlers) (sort : Episode → Prop) : Episode → Prop where
  | refused {q : Question} {s : Session} {e : PlanError} : checkArguments q = .error e →
    Unfolds handlers sort ⟨q, s, [], .refused, .error e, s⟩
  | recalled {q : Question} {s : Session} {v : Option Value} : checkArguments q = .ok () →
    s.remembered? q.key = some v → Unfolds handlers sort ⟨q, s, [], .recalled, .ok v, s⟩
  | unbuilt {q : Question} {s : Session} {e : PlanError} {c : TableCache} :
    checkArguments q = .ok () → s.remembered? q.key = none →
    s.cache.resolve handlers q.node.kind (s.registry.bindings q.node.kind) = (.error e, c) →
    Unfolds handlers sort ⟨q, s, [], .unbuilt, .error e, { s with cache := c }⟩
  | mismatched {q : Question} {s : Session} {found : CachedTable} {c : TableCache} :
    checkArguments q = .ok () → s.remembered? q.key = none →
    s.cache.resolve handlers q.node.kind (s.registry.bindings q.node.kind) = (.ok found, c) →
    q.node.kind ≠ found.table.kind →
    Unfolds handlers sort ⟨q, s, [], .mismatched,
      .error (.kindMismatch found.table.kind q.node.kind),
      showTable handlers found.table { s with cache := c }⟩
  | consulted {q : Question} {s s₁ : Session} {found : CachedTable} {c : TableCache}
      {es : List Episode} {a : Answer} :
    checkArguments q = .ok () → s.remembered? q.key = none →
    s.cache.resolve handlers q.node.kind (s.registry.bindings q.node.kind) = (.ok found, c) →
    q.node.kind = found.table.kind →
    Consults handlers sort q (found.table.handlersFor q.property)
      (showTable handlers found.table { s with cache := c }) es a s₁ →
    Unfolds handlers sort ⟨q, s, es, .consulted, a, s₁.keep q.key a⟩

/-- An episode takes place, with questions nested at most `depth` deep. -/
def Takes (handlers : Handlers) : (depth : Nat) → Episode → Prop
  | 0 => fun _ => False
  | depth + 1 => Unfolds handlers (Takes handlers depth)

variable {handlers : Handlers} {sort sort' : Episode → Prop} {q : Question} {s s' : Session}
  {a : Answer} {es : List Episode} {n : Nat}

/-! ### Every question that is answered has its episode -/

section Respond

variable {respond : Question → SessionM Answer}
  (hrespond : ∀ q s a s', (respond q).run s = some (a, s') ↔
    ∃ es course, sort ⟨q, s, es, course, a, s'⟩)

include hrespond

theorem run_inquiry_iff {i : Inquiry} :
    (i.run respond).run s = some (a, s') ↔ ∃ es, Pursues sort i s es a s' := by
  induction i generalizing s with
  | answer b =>
      constructor
      · intro hrun
        cases hrun
        exact ⟨[], .answer⟩
      · rintro ⟨es, hpursues⟩
        cases hpursues
        rfl
  | ask r next ih =>
      constructor
      · intro hrun
        obtain ⟨⟨b, s₁⟩, hfirst, hrest⟩ := Option.bind_eq_some_iff.1 hrun
        obtain ⟨inner, course, hE⟩ := (hrespond r s b s₁).1 hfirst
        obtain ⟨es, hpursues⟩ := (ih b).1 hrest
        exact ⟨_, .ask hE hpursues⟩
      · rintro ⟨es, hpursues⟩
        cases hpursues with
        | @ask E _ _ _ _ hE hrest =>
            have hfirst : (respond E.question).run E.before = some (E.answer, E.after) := by
              cases E with
              | mk q s inner course b s₁ => exact (hrespond q s b s₁).2 ⟨inner, course, hE⟩
            exact Option.bind_eq_some_iff.2 ⟨_, hfirst, (ih _).2 ⟨_, hrest⟩⟩

theorem run_consult_iff {order : List HandlerId} :
    (consult handlers respond q order).run s = some (a, s') ↔
      ∃ es, Consults handlers sort q order s es a s' := by
  induction order generalizing s with
  | nil =>
      constructor
      · intro hrun
        cases hrun
        exact ⟨[], .nil⟩
      · rintro ⟨es, hconsults⟩
        cases hconsults
        rfl
  | cons h rest ih =>
      rw [run_consult_cons, Option.bind_eq_bind, Option.bind_eq_some_iff]
      constructor
      · rintro ⟨⟨e | _ | v, s₁⟩, hfirst, hrest⟩
        · obtain ⟨es, hpursues⟩ := (run_inquiry_iff hrespond).1 hfirst
          cases hrest
          exact ⟨es, .decided hpursues nofun⟩
        · obtain ⟨es, hpursues⟩ := (run_inquiry_iff hrespond).1 hfirst
          obtain ⟨es', hconsults⟩ := ih.1 hrest
          exact ⟨es ++ es', .next hpursues hconsults⟩
        · obtain ⟨es, hpursues⟩ := (run_inquiry_iff hrespond).1 hfirst
          cases hrest
          exact ⟨es, .decided hpursues nofun⟩
      · rintro ⟨es, hconsults⟩
        cases hconsults with
        | next hpursues hrest =>
            exact ⟨_, (run_inquiry_iff hrespond).2 ⟨_, hpursues⟩, ih.2 ⟨_, hrest⟩⟩
        | decided hpursues hne =>
            refine ⟨_, (run_inquiry_iff hrespond).2 ⟨_, hpursues⟩, ?_⟩
            match a, hne with
            | .error e, _ => rfl
            | .ok (some v), _ => rfl

/-- With a table for the kind of the node, the handlers that it has are asked. -/
theorem run_compute_iff_of_kind {found : CachedTable} {c : TableCache}
    (hfound : s.cache.resolve handlers q.node.kind (s.registry.bindings q.node.kind) =
      (.ok found, c)) (hkind : q.node.kind = found.table.kind) :
    (compute handlers respond q).run s = some (a, s') ↔
      ∃ es s₁, Consults handlers sort q (found.table.handlersFor q.property)
        (showTable handlers found.table { s with cache := c }) es a s₁ ∧ s' = s₁.keep q.key a := by
  rw [run_compute_of_ok hfound, dispatch, if_pos hkind, Option.bind_eq_bind,
    Option.bind_eq_some_iff]
  constructor
  · rintro ⟨⟨b, s₁⟩, hconsult, hkeep⟩
    obtain ⟨es, hes⟩ := (run_consult_iff hrespond).1 hconsult
    cases hkeep
    exact ⟨es, s₁, hes, rfl⟩
  · rintro ⟨es, s₁, hes, rfl⟩
    exact ⟨(a, s₁), (run_consult_iff hrespond).2 ⟨es, hes⟩, rfl⟩

end Respond

/-- A table for another kind is not put to use. -/
theorem run_compute_of_kind_ne {respond : Question → SessionM Answer} {found : CachedTable}
    {c : TableCache}
    (hfound : s.cache.resolve handlers q.node.kind (s.registry.bindings q.node.kind) =
      (.ok found, c)) (hkind : q.node.kind ≠ found.table.kind) :
    (compute handlers respond q).run s =
      some (.error (.kindMismatch found.table.kind q.node.kind),
        showTable handlers found.table { s with cache := c }) := by
  rw [run_compute_of_ok hfound, dispatch, if_neg hkind]
  rfl

/-- Just the questions that are answered have their episodes. -/
theorem run_ask_iff : (ask handlers n q).run s = some (a, s') ↔
    ∃ es course, Takes handlers n ⟨q, s, es, course, a, s'⟩ := by
  induction n generalizing q s a s' with
  | zero => exact iff_of_false nofun nofun
  | succ n ih =>
      constructor
      · intro hrun
        cases hargs : checkArguments q with
        | error e =>
            rw [run_ask_of_checkArguments hargs] at hrun
            cases hrun
            exact ⟨_, _, .refused hargs⟩
        | ok u =>
            cases hv : s.remembered? q.key with
            | some v =>
                rw [run_ask_of_remembered hargs hv] at hrun
                cases hrun
                exact ⟨_, _, .recalled hargs hv⟩
            | none =>
                rw [run_ask_of_not_remembered hargs hv] at hrun
                cases hfound : s.cache.resolve handlers q.node.kind
                    (s.registry.bindings q.node.kind) with
                | mk found c =>
                    cases found with
                    | error e =>
                        rw [run_compute_of_error hfound] at hrun
                        cases hrun
                        exact ⟨_, _, .unbuilt hargs hv hfound⟩
                    | ok found =>
                        by_cases hkind : q.node.kind = found.table.kind
                        · obtain ⟨es, s₁, hes, rfl⟩ :=
                            (run_compute_iff_of_kind (fun _ _ _ _ => ih) hfound hkind).1 hrun
                          exact ⟨_, _, .consulted hargs hv hfound hkind hes⟩
                        · rw [run_compute_of_kind_ne hfound hkind] at hrun
                          cases hrun
                          exact ⟨_, _, .mismatched hargs hv hfound hkind⟩
      · rintro ⟨es, course, hE⟩
        cases hE with
        | refused hargs => exact run_ask_of_checkArguments hargs
        | recalled hargs hv => exact run_ask_of_remembered hargs hv
        | unbuilt hargs hv hfound =>
            rw [run_ask_of_not_remembered hargs hv, run_compute_of_error hfound]
        | mismatched hargs hv hfound hkind =>
            rw [run_ask_of_not_remembered hargs hv, run_compute_of_kind_ne hfound hkind]
        | consulted hargs hv hfound hkind hes =>
            rw [run_ask_of_not_remembered hargs hv]
            exact (run_compute_iff_of_kind (fun _ _ _ _ => ih) hfound hkind).2 ⟨_, _, hes, rfl⟩

theorem Takes.run_ask {E : Episode} (hE : Takes handlers n E) :
    (ask handlers n E.question).run E.before = some (E.answer, E.after) := by
  cases E with
  | mk q s inner course a s' => exact run_ask_iff.2 ⟨inner, course, hE⟩

theorem Takes.unfolds {E : Episode} (hE : Takes handlers n E) :
    ∃ m, Unfolds handlers (Takes handlers m) E := by
  cases n with
  | zero => exact hE.elim
  | succ n => exact ⟨n, hE⟩

/-! ### Episodes in a consistent session -/

variable {nodes : Set Plan} {registry : Registry} {i : Inquiry} {order : List HandlerId}
  {E : Episode} {m : Nat} {b : Answer}

/-- An episode takes place in a consistent session, and its question is about a given node. -/
structure Proper (handlers : Handlers) (nodes : Set Plan) (registry : Registry) (n : Nat)
    (E : Episode) : Prop where
  takes : Takes handlers n E
  mem : E.question.node ∈ nodes
  before : Consistent handlers nodes registry E.before

section Pure

variable (hids : nodes.InjOn Plan.id) (hpure : ∀ h, (handlers h).Pure nodes)

include hids hpure

/-- A proper episode leaves the session consistent and answers what the question comes to. -/
theorem Proper.sound (hE : Proper handlers nodes registry n E) :
    Consistent handlers nodes registry E.after ∧
      ∃ m, evaluate handlers registry m E.question = some E.answer :=
  (follows_ask hids hpure hE.mem).sound hE.before hE.takes.run_ask

theorem Pursues.proper (hi : i.AsksAbout nodes) (hs : Consistent handlers nodes registry s)
    (h : Pursues (Takes handlers n) i s es a s') :
    Pursues (Proper handlers nodes registry n) i s es a s' ∧
      Consistent handlers nodes registry s' := by
  induction h with
  | answer => exact ⟨.answer, hs⟩
  | ask hE _ ih =>
      cases hi with
      | ask hq hnext =>
          have hproper : Proper handlers nodes registry n _ := ⟨hE, hq, hs⟩
          obtain ⟨hrest, hs'⟩ := ih (hnext _) (hproper.sound hids hpure).1
          exact ⟨.ask hproper hrest, hs'⟩

theorem Consults.proper (hq : q.node ∈ nodes) (hs : Consistent handlers nodes registry s)
    (h : Consults handlers (Takes handlers n) q order s es a s') :
    Consults handlers (Proper handlers nodes registry n) q order s es a s' := by
  induction h with
  | nil => exact .nil
  | next hfirst _ ih =>
      obtain ⟨hpursues, hs₁⟩ := hfirst.proper hids hpure ((hpure _).asksAbout q hq) (hs.record _)
      exact .next hpursues (ih hs₁)
  | decided hfirst hne =>
      obtain ⟨hpursues, -⟩ := hfirst.proper hids hpure ((hpure _).asksAbout q hq) (hs.record _)
      exact .decided hpursues hne

/-- The questions on the way of a proper episode are asked in proper episodes. -/
theorem Proper.unfolds (hE : Proper handlers nodes registry (n + 1) E) :
    Unfolds handlers (Proper handlers nodes registry n) E := by
  obtain ⟨htakes, hq, hs⟩ := hE
  cases htakes with
  | refused hargs => exact .refused hargs
  | recalled hargs hv => exact .recalled hargs hv
  | unbuilt hargs hv hfound => exact .unbuilt hargs hv hfound
  | mismatched hargs hv hfound hkind => exact .mismatched hargs hv hfound hkind
  | @consulted q _ _ _ _ _ _ hargs hv hfound hkind hes =>
      obtain ⟨found, c, hfound', -, -, hs'⟩ := hs.exists_resolve q.node.kind
      cases hfound.symm.trans hfound'
      exact .consulted hargs hv hfound hkind (hes.proper hids hpure hq (hs'.showTable _))

end Pure

/-! ### No question leads back to itself -/

section ComesTo

variable {f : Question → Option Answer} {P : Episode → Prop}
  (hsort : ∀ E, sort E → ∀ b, f E.question = some b →
    b = E.answer ∧ P E ∧ ∀ U ∈ E.inner, P U)

include hsort

/-- If the questions come to what they were answered, so does the inquiry. -/
theorem Pursues.comes_to (h : Pursues sort i s es a s') (hf : i.run f = some b) :
    b = a ∧ ∀ U ∈ es, P U := by
  induction h with
  | answer =>
      cases hf
      exact ⟨rfl, by simp⟩
  | ask hE _ ih =>
      obtain ⟨c, hfirst, hrest⟩ := Option.bind_eq_some_iff.1 hf
      obtain ⟨rfl, hP, hinner⟩ := hsort _ hE c hfirst
      obtain ⟨hb, hlater⟩ := ih hrest
      exact ⟨hb, List.forall_mem_append.2 ⟨hinner, List.forall_mem_cons.2 ⟨hP, hlater⟩⟩⟩

theorem Consults.comes_to (h : Consults handlers sort q order s es a s')
    (hf : consultAll handlers f q order = some b) : b = a ∧ ∀ U ∈ es, P U := by
  induction h with
  | nil =>
      cases hf
      exact ⟨rfl, by simp⟩
  | next hfirst _ ih =>
      obtain ⟨c, hc, hrest⟩ := Option.bind_eq_some_iff.1 hf
      obtain ⟨rfl, hes⟩ := hfirst.comes_to hsort hc
      obtain ⟨hb, hes'⟩ := ih hrest
      exact ⟨hb, List.forall_mem_append.2 ⟨hes, hes'⟩⟩
  | @decided _ _ _ _ _ a hfirst hne =>
      obtain ⟨c, hc, hrest⟩ := Option.bind_eq_some_iff.1 hf
      obtain ⟨rfl, hes⟩ := hfirst.comes_to hsort hc
      match c, hne, hrest with
      | .error e, _, rfl => exact ⟨rfl, hes⟩
      | .ok (some v), _, rfl => exact ⟨rfl, hes⟩

end ComesTo

section Pure

variable (hids : nodes.InjOn Plan.id) (hpure : ∀ h, (handlers h).Pure nodes)

include hids hpure

/-- A question on the way comes to something at a smaller depth. -/
theorem Proper.inner (hE : Proper handlers nodes registry n E)
    (hm : evaluate handlers registry (m + 1) E.question = some b) :
    ∀ U ∈ E.inner, (∃ k, Proper handlers nodes registry k U) ∧
      ∃ c, evaluate handlers registry m U.question = some c := by
  induction n generalizing E m b with
  | zero => exact hE.takes.elim
  | succ n ih =>
      have hsort : ∀ W, Proper handlers nodes registry n W → ∀ c,
          evaluate handlers registry m W.question = some c → c = W.answer ∧
            ((∃ k, Proper handlers nodes registry k W) ∧
              ∃ c, evaluate handlers registry m W.question = some c) ∧
            ∀ U ∈ W.inner, (∃ k, Proper handlers nodes registry k U) ∧
              ∃ c, evaluate handlers registry m U.question = some c := by
        intro W hW c hc
        obtain ⟨-, m', hm'⟩ := hW.sound hids hpure
        refine ⟨(stable_evaluate _).unique hc hm', ⟨⟨n, hW⟩, c, hc⟩, fun U hU => ?_⟩
        cases m with
        | zero => cases hc
        | succ m =>
            obtain ⟨hproper, d, hd⟩ := ih hW hc U hU
            exact ⟨hproper, d, stable_evaluate _ (Nat.le_succ m) hd⟩
      have hs := hE.before
      have hunfolds := hE.unfolds hids hpure
      clear hE
      cases hunfolds with
      | refused | recalled | unbuilt | mismatched => exact fun U hU => nomatch hU
      | @consulted q s s₁ found c es a hargs hv hfound hkind hes =>
          obtain ⟨found', c', hfound', htable, -⟩ := hs.exists_resolve q.node.kind
          cases hfound.symm.trans hfound'
          rw [evaluate_of_build hargs htable.symm] at hm
          exact (hes.comes_to hsort hm).2

/-- No question is asked again on the way to its answer. -/
theorem Proper.key_ne (hE : Proper handlers nodes registry n E) :
    ∀ U ∈ E.inner, (U.question.key == E.question.key) = false := by
  intro U hU
  by_contra hkey
  rw [Bool.not_eq_false] at hkey
  -- The question would come to something at ever smaller depths.
  have hnever : ∀ m b, evaluate handlers registry m E.question ≠ some b := by
    intro m
    induction m with
    | zero => exact fun b hb => nomatch hb
    | succ m ih =>
        intro b hb
        obtain ⟨⟨k, hproper⟩, c, hc⟩ := hE.inner hids hpure hb U hU
        have hlike : U.question.Like E.question := like_of_key_beq hids hproper.mem hE.mem hkey
        rw [hlike.evaluate_eq hpure m] at hc
        exact ih c hc
  obtain ⟨-, m, hm⟩ := hE.sound hids hpure
  exact hnever m _ hm

end Pure

end Session

end QueryPlan.Metadata
