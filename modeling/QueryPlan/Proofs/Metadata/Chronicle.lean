import QueryPlan.Proofs.Metadata.Ledger

/-!
# What a session remembers of what happened in it

A chronicle lists the episodes of a session from its start on, in the order in which they ended,
those on the way to an answer before the one that they led to. The ledger begins with nothing
remembered, so what a session remembers is what its episodes have written, at the end of every
single one. From this everything else is read off: how many answers are remembered, that none is
computed twice, and what a failure leaves.
-/

namespace QueryPlan.Metadata

namespace Session

/-- The keys of the questions that were answered, each once. -/
def answeredKeys (es : List Episode) : List MemoKey :=
  ((es.filter Episode.succeeded).map Episode.key).eraseDups

/-- The session was started over the dispatch tables that other sessions had left, and the
episodes took place in it, those on the way to an answer before the one that they led to. In
between its settings were changed and its tables were shared. -/
inductive Chronicle (handlers : Handlers) (nodes : Set Plan) : List Episode → Session → Prop where
  | start {t : Session} (registry : Registry) : Lived handlers nodes t →
    Chronicle handlers nodes [] (start registry t.cache)
  | share {s t : Session} {es : List Episode} : Lived handlers nodes s →
    Chronicle handlers nodes es t → Chronicle handlers nodes es { t with cache := s.cache }
  | withSettings {s : Session} {es : List Episode} (settings : Settings) :
    Chronicle handlers nodes es s → Chronicle handlers nodes es (s.withSettings settings)
  | resolve {s s' : Session} {es : List Episode} {kind : OperatorKind} {bindings : List Binding}
      {found : Except PlanError CachedTable} : Chronicle handlers nodes es s →
    (resolve handlers kind bindings).run s = some (found, s') → Chronicle handlers nodes es s'
  | ask {E : Episode} {es : List Episode} {n : Nat} : Chronicle handlers nodes es E.before →
    E.question.node ∈ nodes → Takes handlers n E →
    Chronicle handlers nodes (es ++ (E.inner ++ [E])) E.after

/-- The episodes `es` and what the session `s` remembers after them. -/
structure Account (es : List Episode) (s : Session) : Prop where
  /-- Handlers that are asked for one key succeed only once. -/
  once : es.Pairwise fun E E' => E.course = .consulted → E.succeeded = true →
    E'.course = .consulted → E'.succeeded = true → (E.key == E'.key) = false
  /-- After an answer that is not a failure no handler is asked for its key. -/
  quiet : ∀ E ∈ es, E.succeeded = true → ∃ later, s.asked = E.after.asked ++ later ∧
    ∀ c ∈ later, (E.key == c.2) = false
  /-- As many answers are remembered as there are keys that were answered, -/
  memoSize_eq : s.memoSize = (answeredKeys es).length
  /-- also at the end of every episode. -/
  memoSize_after : ∀ before E after, es = before ++ E :: after →
    E.after.memoSize = (answeredKeys (before ++ [E])).length
  /-- A question fails by its arguments, by its dispatch table or by a handler. -/
  failure : ∀ E ∈ es, E.succeeded = false →
    E.course = .refused ∨ E.course = .unbuilt ∨ E.course = .consulted
  /-- By its arguments or its dispatch table it fails without changing what is remembered. -/
  memo_eq : ∀ E ∈ es, E.course = .refused ∨ E.course = .unbuilt → E.after.memo = E.before.memo
  /-- If it fails by a handler, what is remembered in addition are the answers on the way to it
  that are not failures, -/
  remembered_iff : ∀ E ∈ es, E.course = .consulted → E.succeeded = false → ∀ key v,
    E.after.remembered? key = some v ↔ E.before.remembered? key = some v ∨
      ∃ U ∈ E.inner, U.answer = .ok v ∧ (U.key == key) = true
  /-- and not for its own key nor for that of a question that it is on the way of. -/
  not_remembered : ∀ E ∈ es, E.course = .consulted → E.succeeded = false →
    E.after.remembered? E.key = none ∧
      ∀ U ∈ es, E ∈ U.inner → E.after.remembered? U.key = none

variable {handlers : Handlers} {nodes : Set Plan} {registry : Registry} {q : Question}
  {s s' t : Session} {a : Answer} {es : List Episode} {n : Nat} {E : Episode}

/-! ### Chronicles -/

/-- A question that is answered continues the chronicle. -/
theorem Chronicle.run_ask (h : Chronicle handlers nodes es s) (hq : q.node ∈ nodes)
    (hrun : (Session.ask handlers n q).run s = some (a, s')) :
    ∃ E : Episode, E.question = q ∧ E.before = s ∧ E.answer = a ∧ E.after = s' ∧
      Takes handlers n E ∧ Chronicle handlers nodes (es ++ (E.inner ++ [E])) s' := by
  obtain ⟨inner, course, hE⟩ := run_ask_iff.1 hrun
  exact ⟨⟨q, s, inner, course, a, s'⟩, rfl, rfl, rfl, rfl, hE, .ask h hq hE⟩

theorem Chronicle.lived (h : Chronicle handlers nodes es s) : Lived handlers nodes s := by
  induction h with
  | start registry ht => exact .share ht (.start registry)
  | share hs _ ih => exact .share hs ih
  | withSettings settings _ ih => exact .withSettings settings ih
  | resolve _ hrun ih => exact .resolve ih hrun
  | ask _ hq hE ih => exact .step ih (.ask hq hE.run_ask)

/-- Every session that there can be has a chronicle. -/
theorem Lived.exists_chronicle (hs : Lived handlers nodes s) :
    ∃ es, Chronicle handlers nodes es s := by
  induction hs with
  | start registry => exact ⟨[], .start registry (.start registry)⟩
  | share hs _ _ ih =>
      obtain ⟨es, h⟩ := ih
      exact ⟨es, .share hs h⟩
  | withSettings settings _ ih =>
      obtain ⟨es, h⟩ := ih
      exact ⟨es, .withSettings settings h⟩
  | resolve _ hrun ih =>
      obtain ⟨es, h⟩ := ih
      exact ⟨es, .resolve h hrun⟩
  | step _ hasked ih =>
      obtain ⟨es, h⟩ := ih
      obtain ⟨hq, hrun⟩ := hasked
      obtain ⟨E, -, -, -, -, -, hE⟩ := h.run_ask hq hrun
      exact ⟨_, hE⟩

section Pure

variable (hids : nodes.InjOn Plan.id) (hpure : ∀ h, (handlers h).Pure nodes)

include hids hpure

/-- The episodes account for everything that is remembered. -/
theorem Chronicle.ledger (h : Chronicle handlers nodes es s) :
    ∃ s₀ : Session, s₀.memo = [] ∧ Ledger s₀ es s := by
  induction h with
  | start registry => exact ⟨_, rfl, (Later.refl _).ledger rfl⟩
  | share _ _ ih | withSettings _ _ ih =>
      obtain ⟨s₀, hs₀, hledger⟩ := ih
      exact ⟨s₀, hs₀, hledger.of_eq rfl rfl⟩
  | resolve _ hrun ih =>
      rw [run_resolve rfl] at hrun
      cases hrun
      obtain ⟨s₀, hs₀, hledger⟩ := ih
      exact ⟨s₀, hs₀, hledger.of_eq rfl rfl⟩
  | ask h hq hE ih =>
      obtain ⟨s₀, hs₀, hledger⟩ := ih
      have hproper : Proper handlers nodes _ _ _ := ⟨hE, hq, h.lived.consistent hids hpure⟩
      exact ⟨s₀, hs₀, hledger.trans (hproper.ledger hids hpure)⟩

theorem Chronicle.proper (h : Chronicle handlers nodes es s) :
    ∀ E ∈ es, ∃ registry n, Proper handlers nodes registry n E := by
  induction h with
  | start => simp
  | share _ _ ih | withSettings _ _ ih | resolve _ _ ih => exact ih
  | @ask E _ _ h hq hE ih =>
      have hproper : Proper handlers nodes _ _ _ := ⟨hE, hq, h.lived.consistent hids hpure⟩
      obtain ⟨hsound, m, hm⟩ := hproper.sound hids hpure
      have hinner := hproper.inner hids hpure (stable_evaluate E.question (Nat.le_succ m) hm)
      refine List.forall_mem_append.2 ⟨ih, List.forall_mem_append.2 ⟨fun U hU => ?_, ?_⟩⟩
      · obtain ⟨k, hk⟩ := (hinner U hU).1
        exact ⟨_, k, hk⟩
      · simpa using ⟨_, _, hproper⟩

end Pure

/-! ### Reading the ledger from the start on -/

section FromStart

variable {s₀ : Session} (hs₀ : s₀.memo = []) (h : Ledger s₀ es s)
  {before after earlier : List Episode} {U : Episode}

include hs₀ h

theorem Ledger.distinct_written (hes : es = before ++ after) :
    (written before).Pairwise fun e e' => (e.1 == e'.1) = false := by
  have hdistinct : s.Distinct := h.distinct (by rw [Distinct, hs₀]; exact .nil)
  rw [Distinct, h.memo, hs₀, List.append_nil, hes, written_append] at hdistinct
  exact (List.pairwise_append.1 hdistinct).2.1

/-- At the end of an episode what was written up to there is remembered. -/
theorem Ledger.memo_after (hes : es = before ++ E :: after) :
    E.after.memo = written (before ++ [E]) := by
  obtain ⟨earlier, -, -, hE, -⟩ := h.episode before E after hes
  rw [hE, hs₀, List.append_nil]

/-- What is remembered at the end of an episode still is at the end of a later one. -/
theorem Ledger.memo_after_suffix (hes : es = before ++ E :: after)
    (hinitial : before ++ [E] <+: earlier) : E.after.memo <:+ written earlier := by
  obtain ⟨rest, rfl⟩ := hinitial
  rw [h.memo_after hs₀ hes, written_append (before ++ [E])]
  exact List.suffix_append _ _

omit hs₀ in
theorem Ledger.mem_of_mem_inner (hU : U ∈ es) (hE : E ∈ U.inner) : E ∈ es := by
  obtain ⟨before, after, hes⟩ := List.append_of_mem hU
  obtain ⟨earlier, rfl, -, -, -⟩ := h.episode before U after hes
  rw [hes]
  exact List.mem_append_left _ (List.mem_append_right earlier hE)

/-- While a question is answered, what is remembered at the end of the episodes on the way is what
was at its beginning and what they have written. -/
theorem Ledger.memo_after_of_mem_inner (hU : U ∈ es) (hE : E ∈ U.inner) :
    ∃ on : List Episode, on ⊆ U.inner ∧ E.after.memo = written on ++ U.before.memo := by
  obtain ⟨before, after, hes⟩ := List.append_of_mem hU
  obtain ⟨earlier, rfl, hbefore, -, -⟩ := h.episode before U after hes
  obtain ⟨first, last, hinner⟩ := List.append_of_mem hE
  have hes' : es = (earlier ++ first) ++ E :: (last ++ U :: after) := by
    rw [hes, hinner]
    simp
  refine ⟨first ++ [E], by simp [hinner], ?_⟩
  rw [h.memo_after hs₀ hes', hbefore, hs₀, List.append_nil, List.append_assoc, written_append]

/-- An episode that writes nothing itself leaves what those on its way have written. -/
theorem Ledger.memo_after_of_entry (hE : E ∈ es) (hentry : E.entry = none) :
    E.after.memo = written E.inner ++ E.before.memo := by
  obtain ⟨before, after, hes⟩ := List.append_of_mem hE
  obtain ⟨earlier, rfl, hbefore, -, -⟩ := h.episode before E after hes
  rw [h.memo_after hs₀ hes, hbefore, hs₀, List.append_nil, written_append, written_append,
    written_singleton, hentry]
  rfl

theorem Ledger.distinct_after (hE : E ∈ es) : E.after.Distinct := by
  obtain ⟨before, after, hes⟩ := List.append_of_mem hE
  rw [Distinct, h.memo_after hs₀ hes]
  exact h.distinct_written hs₀ (hes.trans (List.append_cons _ _ _))

variable (hkept : ∀ E ∈ es, ∀ v, E.answer = .ok v →
  ∃ e ∈ E.after.memo, (e.1 == E.key) = true ∧ e.2 = v)

include hkept

/-- What the episodes of an initial part have written is under different keys, which are those
that were answered. -/
theorem Ledger.length_written (hes : es = before ++ after) :
    (written before).length = (answeredKeys before).length := by
  have hdistinct : ((written before).map Prod.fst).Pairwise fun k k' => (k == k') = false :=
    List.pairwise_map.2 (h.distinct_written hs₀ hes)
  rw [answeredKeys, MemoKey.length_eraseDups_eq hdistinct, List.length_map]
  · intro k hk
    obtain ⟨U, hU, rfl⟩ := List.mem_map.1 hk
    obtain ⟨hU, hsucceeded⟩ := List.mem_filter.1 hU
    obtain ⟨first, last, rfl⟩ := List.append_of_mem hU
    have hmem : U ∈ es := hes ▸ List.mem_append_left after hU
    obtain ⟨v, hv⟩ := succeeded_iff.1 hsucceeded
    obtain ⟨e, he, hkey, -⟩ := hkept U hmem v hv
    have hsuffix : U.after.memo <:+ written (first ++ U :: last) :=
      h.memo_after_suffix hs₀ (hes.trans (List.append_assoc _ _ _)) ⟨last, by simp⟩
    exact ⟨e.1, List.mem_map_of_mem (hsuffix.subset he), hkey⟩
  · intro k hk
    obtain ⟨e, he, rfl⟩ := List.mem_map.1 hk
    obtain ⟨U, hU, hentry⟩ := mem_written.1 he
    obtain ⟨-, hanswer, hkey⟩ := entry_eq_some_iff.1 hentry
    rw [← hkey]
    exact List.mem_map_of_mem (List.mem_filter.2 ⟨hU, succeeded_iff.2 ⟨e.2, hanswer⟩⟩)

/-- After an episode that writes nothing itself, what was remembered before it is, and what the
questions on the way were answered. -/
theorem Ledger.remembered_after_iff {key : MemoKey} {v : Option Value} (hE : E ∈ es)
    (hentry : E.entry = none) :
    E.after.remembered? key = some v ↔ E.before.remembered? key = some v ∨
      ∃ U ∈ E.inner, U.answer = .ok v ∧ (U.key == key) = true := by
  have hafter := h.memo_after_of_entry hs₀ hE hentry
  have hdistinct := h.distinct_after hs₀ hE
  have hbefore : E.before.memo <:+ E.after.memo := hafter ▸ List.suffix_append _ _
  rw [remembered?_eq_some_iff hdistinct,
    remembered?_eq_some_iff (List.Pairwise.sublist hbefore.sublist hdistinct)]
  constructor
  · rintro ⟨e, he, hkey, rfl⟩
    rw [hafter] at he
    rcases List.mem_append.1 he with he | he
    · obtain ⟨U, hU, hwrites⟩ := mem_written.1 he
      obtain ⟨-, hanswer, hUkey⟩ := entry_eq_some_iff.1 hwrites
      exact .inr ⟨U, hU, hanswer, hUkey ▸ hkey⟩
    · exact .inl ⟨e, he, hkey, rfl⟩
  · rintro (⟨e, he, hkey, rfl⟩ | ⟨U, hU, hanswer, hkey⟩)
    · exact ⟨e, hbefore.subset he, hkey, rfl⟩
    · obtain ⟨e, he, hUkey, rfl⟩ := hkept U (h.mem_of_mem_inner hE hU) v hanswer
      refine ⟨e, ?_, PartialEquivBEq.trans hUkey hkey, rfl⟩
      obtain ⟨on, hon, hUafter⟩ := h.memo_after_of_mem_inner hs₀ hE hU
      rw [hUafter] at he
      rw [hafter]
      exact List.mem_append.2 ((List.mem_append.1 he).imp_left (written_subset hon ·))

end FromStart

/-! ### Accounting for what is remembered -/

/-- A question that fails was refused, has no dispatch table or was put to the handlers. -/
theorem Proper.failure (hE : Proper handlers nodes registry n E) (hfailed : E.succeeded = false) :
    E.course = .refused ∨ E.course = .unbuilt ∨ E.course = .consulted := by
  obtain ⟨m, hunfolds⟩ := hE.takes.unfolds
  have hs := hE.before
  clear hE
  cases hunfolds with
  | refused => exact .inl rfl
  | recalled => cases hfailed
  | unbuilt => exact .inr (.inl rfl)
  | @mismatched q s found c hargs hnew hfound hkind =>
      -- The cache has only tables that were made for their kind.
      obtain ⟨found', c', hfound', htable, -⟩ := hs.exists_resolve q.node.kind
      cases hfound.symm.trans hfound'
      exact absurd (DispatchTable.kind_of_build htable.symm).symm hkind
  | consulted => exact .inr (.inr rfl)

section Pure

variable (hids : nodes.InjOn Plan.id) (hpure : ∀ h, (handlers h).Pure nodes)

include hids hpure

/-- While a question is put to the handlers, its answer is not remembered. -/
theorem Proper.remembered?_eq_none (hE : Proper handlers nodes registry n E)
    (hcourse : E.course = .consulted) (hon : es ⊆ E.inner)
    (hmemo : t.memo = written es ++ E.before.memo) : t.remembered? E.key = none := by
  have hne : ∀ U ∈ es, (U.key == E.key) = false := fun U hU =>
    hE.key_ne hids hpure U (hon hU)
  have hnew := remembered?_eq_none_iff.1 (hE.takes.remembered?_eq_none hcourse)
  rw [remembered?_eq_none_iff, hmemo]
  exact key_ne_of_mem_written hne hnew

/-- What a session remembers, and which handlers were asked in it, is accounted for by its
episodes. -/
theorem Chronicle.account (h : Chronicle handlers nodes es s) : Account es s := by
  obtain ⟨s₀, hs₀, hledger⟩ := h.ledger hids hpure
  have hproper := h.proper hids hpure
  have hkept : ∀ E ∈ es, ∀ v, E.answer = .ok v →
      ∃ e ∈ E.after.memo, (e.1 == E.key) = true ∧ e.2 = v := by
    intro E hE v hv
    obtain ⟨registry, n, hP⟩ := hproper E hE
    exact hP.takes.exists_mem_memo hv
  have hmemo : s.memo = written es := by rw [hledger.memo, hs₀, List.append_nil]
  constructor
  case once =>
    have hdistinct := hledger.distinct_written hs₀ (List.append_nil es).symm
    rw [written, List.pairwise_reverse, List.pairwise_filterMap] at hdistinct
    refine hdistinct.imp fun hne hcourse hsucceeded hcourse' hsucceeded' => ?_
    obtain ⟨v, hentry⟩ := exists_entry hcourse hsucceeded
    obtain ⟨v', hentry'⟩ := exists_entry hcourse' hsucceeded'
    exact beq_symm_false (hne _ hentry _ hentry')
  case quiet =>
    intro E hE hsucceeded
    obtain ⟨v, hv⟩ := succeeded_iff.1 hsucceeded
    obtain ⟨e, he, hkey, -⟩ := hkept E hE v hv
    obtain ⟨before, after, hes⟩ := List.append_of_mem hE
    obtain ⟨-, -, -, -, hlater⟩ := hledger.episode before E after hes
    obtain ⟨later, hasked, hnot⟩ := hlater.asked
    refine ⟨later, hasked, fun c hc => ?_⟩
    rw [← BEq.congr_left hkey]
    exact hnot c hc e he
  case memoSize_eq =>
    rw [Session.memoSize, hmemo]
    exact hledger.length_written hs₀ hkept (List.append_nil es).symm
  case memoSize_after =>
    intro before E after hes
    rw [Session.memoSize, hledger.memo_after hs₀ hes]
    exact hledger.length_written hs₀ hkept (hes.trans (List.append_cons _ _ _))
  case failure =>
    intro E hE hfailed
    obtain ⟨registry, n, hP⟩ := hproper E hE
    exact hP.failure hfailed
  case memo_eq =>
    intro E hE hcourse
    obtain ⟨registry, n, hP⟩ := hproper E hE
    refine (hP.takes.same_of_not_consulted fun hconsulted => ?_).1
    rw [hconsulted] at hcourse
    rcases hcourse with hcourse | hcourse
    · cases hcourse
    · cases hcourse
  case remembered_iff =>
    intro E hE hcourse hfailed key v
    exact hledger.remembered_after_iff hs₀ hkept hE (entry_of_failed hfailed)
  case not_remembered =>
    intro E hE hcourse hfailed
    obtain ⟨registry, n, hP⟩ := hproper E hE
    have hafter := hledger.memo_after_of_entry hs₀ hE (entry_of_failed hfailed)
    refine ⟨hP.remembered?_eq_none hids hpure hcourse (List.Subset.refl _) hafter, ?_⟩
    intro U hU hEU
    obtain ⟨registry, n, hP⟩ := hproper U hU
    obtain ⟨on, hon, hmemo⟩ := hledger.memo_after_of_mem_inner hs₀ hU hEU
    refine hP.remembered?_eq_none hids hpure ?_ hon hmemo
    by_contra hne
    rw [hP.takes.inner_eq_nil hne] at hEU
    cases hEU

/-- Every session that there can be has a chronicle, and whatever its chronicle is, the episodes
account for what it remembers: no key is computed twice nor put to handlers again, as many answers
are remembered as keys were answered, and a failure leaves no more than the answers on the way to
it. A question that is answered continues the chronicle. -/
theorem Lived.accounted (hs : Lived handlers nodes s) :
    (∃ es, Chronicle handlers nodes es s) ∧
      ∀ es, Chronicle handlers nodes es s → Account es s ∧
        ∀ n q a s', q.node ∈ nodes → (Session.ask handlers n q).run s = some (a, s') →
          ∃ E : Episode, E.question = q ∧ E.before = s ∧ E.answer = a ∧ E.after = s' ∧
            Takes handlers n E ∧ Chronicle handlers nodes (es ++ (E.inner ++ [E])) s' :=
  ⟨hs.exists_chronicle, fun _ h =>
    ⟨h.account hids hpure, fun _ _ _ _ hq hrun => h.run_ask hq hrun⟩⟩

end Pure

end Session

/-! A handler that asks about all inputs in turn, and fails at one leaf. -/

namespace FailingLeaf

def askAll (q : Question) : List Plan → Inquiry
  | [] => .value none
  | i :: rest => .given ⟨q.property, i, q.args⟩ fun _ => askAll q rest

def inquire (q : Question) : Inquiry :=
  if q.node.id = ⟨1⟩ then .fail (.settingsRejected "no such table") else askAll q q.node.inputs

def handlers : Handlers := fun _ => ⟨"all inputs", Property.signature, inquire⟩

theorem asksAbout_askAll {nodes : Set Plan} {q : Question} {inputs : List Plan}
    (hinputs : ∀ i ∈ inputs, i ∈ nodes) : (askAll q inputs).AsksAbout nodes := by
  induction inputs with
  | nil => exact .answer
  | cons i rest ih =>
      obtain ⟨hi, hrest⟩ := List.forall_mem_cons.1 hinputs
      refine .ask hi fun a => ?_
      cases a with
      | error e => exact .answer
      | ok v => exact ih hrest

theorem run_askAll_eq {q q' : Question} (hlike : q.Like q') {respond : Question → Option Answer}
    (hrespond : ∀ r r', r.Like r' → respond r = respond r') (inputs : List Plan) :
    (askAll q inputs).run respond = (askAll q' inputs).run respond := by
  induction inputs with
  | nil => rfl
  | cons i rest ih =>
      have hask : respond ⟨q.property, i, q.args⟩ = respond ⟨q'.property, i, q'.args⟩ :=
        hrespond _ _ ⟨rfl, hlike.property_eq, hlike.args_eq⟩
      rw [askAll, askAll, Inquiry.given, Inquiry.given, Inquiry.run, Inquiry.run, hask]
      refine congrArg (respond _ >>= ·) (funext fun a => ?_)
      cases a with
      | error e => rfl
      | ok v => exact ih

theorem pure_handlers {nodes : Set Plan} (hinputs : ∀ p ∈ nodes, ∀ i ∈ p.inputs, i ∈ nodes)
    (h : HandlerId) : (handlers h).Pure nodes where
  asksAbout q hq := by
    change (inquire q).AsksAbout nodes
    rw [inquire]
    split
    · exact .answer
    · exact asksAbout_askAll (hinputs _ hq)
  run_eq q q' hlike respond hrespond := by
    change (inquire q).run respond = (inquire q').run respond
    rw [inquire, inquire, hlike.node_eq]
    split
    · rfl
    · exact run_askAll_eq hlike hrespond _

/-- The topmost node is asked about, which fails at the second leaf. The answer for the first leaf
is all that is remembered. -/
theorem accounted_shown :
    ∃ (nodes : Set Plan) (es : List Episode) (s : Session), nodes.InjOn Plan.id ∧
      s.Lived handlers nodes ∧ Session.Chronicle handlers nodes es s ∧ Session.Account es s ∧
      s.memoSize = 1 ∧ (Session.answeredKeys es).length = 1 ∧
      ∃ E ∈ es, E.question = FirstInput.uniqueness SwappedStars.shown ∧ E.succeeded = false := by
  obtain ⟨nodes, hshown, hids, hinputs⟩ := SwappedStars.constructed_shown.exists_nodes
  have hmem : (FirstInput.uniqueness SwappedStars.shown).node ∈ nodes := hshown
  have hpure : ∀ h, (handlers h).Pure nodes := pure_handlers hinputs
  have hruns : ((Session.ask handlers 5 (FirstInput.uniqueness SwappedStars.shown)).run
      (.start FirstInput.registry .empty)).map (fun p => (p.1.isOk, p.2.memoSize)) =
        some (false, 1) := by decide +kernel
  obtain ⟨⟨a, s⟩, hrun, hcounts⟩ := Option.map_eq_some_iff.1 hruns
  obtain ⟨hfailed, hsize⟩ := Prod.mk.inj hcounts
  have hstart : Session.Lived handlers nodes (.start FirstInput.registry .empty) :=
    .start _
  obtain ⟨-, hall⟩ := hstart.accounted hids hpure
  obtain ⟨-, hcontinues⟩ := hall [] (.start FirstInput.registry hstart)
  obtain ⟨E, hquestion, -, rfl, rfl, -, hchronicle⟩ := hcontinues 5 _ a s hmem hrun
  have hlived : Session.Lived handlers nodes E.after :=
    .step hstart (.ask hmem hrun)
  obtain ⟨-, hall⟩ := hlived.accounted hids hpure
  obtain ⟨haccount, -⟩ := hall _ hchronicle
  refine ⟨_, _, E.after, hids, hlived, hchronicle, haccount, hsize, ?_, E, by simp, hquestion,
    hfailed⟩
  rw [← haccount.memoSize_eq, hsize]

end FailingLeaf

end QueryPlan.Metadata
