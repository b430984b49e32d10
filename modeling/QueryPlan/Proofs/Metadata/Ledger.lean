import Mathlib.Data.List.Pairwise
import QueryPlan.Proofs.Metadata.Episodes
import QueryPlan.Proofs.Metadata.Keys

/-!
# What episodes write

An episode in which the handlers were asked and did not fail writes one answer, and others write
nothing. So episodes that follow upon each other can be kept in a ledger: at the end of each of
them the session remembers what it did at the beginning, and what has been written up to there.

That what is written is never written over, nor handlers asked for it again, follows from two
facts. Handlers are asked only for what is not remembered, and nothing is written for it while they
are asked, as no question leads back to itself.
-/

namespace QueryPlan.Metadata

namespace Episode

def key (E : Episode) : MemoKey := E.question.key

/-- The question was answered with a value, or that nobody knows. -/
def succeeded (E : Episode) : Bool := E.answer.isOk

/-- What is remembered of the answer, if it was computed. -/
def entry (E : Episode) : Option (MemoKey × Option Value) :=
  match E.course, E.answer with
  | .consulted, .ok v => some (E.key, v)
  | _, _ => none

end Episode

namespace Session

/-- What the episodes have written, the latest first. -/
def written (es : List Episode) : List (MemoKey × Option Value) :=
  (es.filterMap Episode.entry).reverse

/-- No two answers are remembered under one key. -/
def Distinct (s : Session) : Prop := s.memo.Pairwise fun e e' => (e.1 == e'.1) = false

/-- Work in the session led from the one to the other: what was remembered still is, and no
handler was asked for it. -/
structure Later (s s' : Session) : Prop where
  memo : s.memo <:+ s'.memo
  asked : ∃ later, s'.asked = s.asked ++ later ∧
    ∀ c ∈ later, ∀ e ∈ s.memo, (e.1 == c.2) = false

/-- The episodes account for what is remembered in addition. At the end of each of them it is what
was written up to there, and at its beginning what was written before those on its way. -/
structure Ledger (s : Session) (es : List Episode) (s' : Session) : Prop where
  memo : s'.memo = written es ++ s.memo
  later : Later s s'
  distinct : s.Distinct → s'.Distinct
  episode : ∀ before E after, es = before ++ E :: after →
    ∃ earlier, before = earlier ++ E.inner ∧ E.before.memo = written earlier ++ s.memo ∧
      E.after.memo = written (before ++ [E]) ++ s.memo ∧ Later E.after s'

variable {handlers : Handlers} {sort : Episode → Prop} {q : Question} {s s' t : Session}
  {a : Answer} {v : Option Value} {es es' : List Episode} {n : Nat} {i : Inquiry} {E : Episode}
  {order : List HandlerId} {key : MemoKey}

theorem entry_eq_some_iff {e : MemoKey × Option Value} :
    E.entry = some e ↔ E.course = .consulted ∧ E.answer = .ok e.2 ∧ E.key = e.1 := by
  obtain ⟨key, v⟩ := e
  rw [Episode.entry]
  split <;> simp_all [and_comm, eq_comm]

theorem succeeded_iff : E.succeeded = true ↔ ∃ v, E.answer = .ok v := by
  rw [Episode.succeeded]
  cases E.answer with
  | error e => exact iff_of_false nofun nofun
  | ok v => exact iff_of_true rfl ⟨v, rfl⟩

theorem exists_entry (hcourse : E.course = .consulted) (hsucceeded : E.succeeded = true) :
    ∃ v, E.entry = some (E.key, v) := by
  obtain ⟨v, hv⟩ := succeeded_iff.1 hsucceeded
  exact ⟨v, entry_eq_some_iff.2 ⟨hcourse, hv, rfl⟩⟩

theorem entry_of_ne (h : E.course ≠ .consulted) : E.entry = none :=
  Option.eq_none_iff_forall_ne_some.2 fun _ he => h (entry_eq_some_iff.1 he).1

theorem entry_of_failed (h : E.succeeded = false) : E.entry = none := by
  refine Option.eq_none_iff_forall_ne_some.2 fun e he => ?_
  rw [succeeded_iff.2 ⟨e.2, (entry_eq_some_iff.1 he).2.1⟩] at h
  cases h

theorem written_append (es es' : List Episode) :
    written (es ++ es') = written es' ++ written es := by
  rw [written, List.filterMap_append, List.reverse_append, written, written]

theorem mem_written {e : MemoKey × Option Value} :
    e ∈ written es ↔ ∃ E ∈ es, E.entry = some e := by
  rw [written, List.mem_reverse, List.mem_filterMap]

theorem written_subset (h : es ⊆ es') : written es ⊆ written es' := by
  intro e he
  obtain ⟨E, hE, hentry⟩ := mem_written.1 he
  exact mem_written.2 ⟨E, h hE, hentry⟩

theorem written_singleton (E : Episode) : written [E] = E.entry.toList := by
  cases h : E.entry <;> simp [written, h]

/-- What is written is under the keys of the episodes. -/
theorem key_ne_of_mem_written {memo : List (MemoKey × Option Value)}
    (hne : ∀ U ∈ es, (U.key == key) = false) (hnew : ∀ e ∈ memo, (e.1 == key) = false) :
    ∀ e ∈ written es ++ memo, (e.1 == key) = false := by
  refine List.forall_mem_append.2 ⟨fun e he => ?_, hnew⟩
  obtain ⟨U, hU, hentry⟩ := mem_written.1 he
  rw [← (entry_eq_some_iff.1 hentry).2.2]
  exact hne U hU

theorem beq_symm_false {key key' : MemoKey} (h : (key == key') = false) :
    (key' == key) = false := by
  rwa [BEq.comm]

instance : Std.Symm fun e e' : MemoKey × Option Value => (e.1 == e'.1) = false :=
  ⟨fun _ _ => beq_symm_false⟩

theorem remembered?_eq_none_iff :
    s.remembered? key = none ↔ ∀ e ∈ s.memo, (e.1 == key) = false := by
  rw [remembered?, Option.map_eq_none_iff, List.find?_eq_none]
  simp

/-- What is remembered under a key is the only answer under it. -/
theorem remembered?_eq_some_iff (hs : s.Distinct) :
    s.remembered? key = some v ↔ ∃ e ∈ s.memo, (e.1 == key) = true ∧ e.2 = v := by
  constructor
  · exact exists_mem_of_remembered
  · rintro ⟨e, he, hkey, rfl⟩
    cases hv : s.remembered? key with
    | none =>
        rw [remembered?_eq_none_iff.1 hv e he] at hkey
        cases hkey
    | some v =>
        obtain ⟨e', he', hkey', rfl⟩ := exists_mem_of_remembered hv
        have heq : e' = e := by
          by_contra hne
          have hapart : (e'.1 == e.1) = false := hs.forall he' he hne
          rw [PartialEquivBEq.trans hkey' (PartialEquivBEq.symm hkey)] at hapart
          cases hapart
        rw [heq]

/-! ### Keeping the ledger -/

theorem Later.refl (s : Session) : Later s s := ⟨List.suffix_rfl, [], by simp, by simp⟩

theorem Later.trans (h : Later s t) (h' : Later t s') : Later s s' := by
  obtain ⟨hmemo, later, hasked, hnot⟩ := h
  obtain ⟨hmemo', later', hasked', hnot'⟩ := h'
  refine ⟨hmemo.trans hmemo', later ++ later', ?_, List.forall_mem_append.2 ⟨hnot, ?_⟩⟩
  · rw [hasked', hasked, List.append_assoc]
  · exact fun c hc e he => hnot' c hc e (hmemo.subset he)

/-- Nothing was written and nobody was asked. -/
theorem Later.of_eq (hmemo : s'.memo = s.memo) (hasked : s'.asked = s.asked) : Later s s' :=
  ⟨hmemo ▸ List.suffix_rfl, [], by rw [hasked, List.append_nil], by simp⟩

theorem Later.record (h : HandlerId) (hnew : ∀ e ∈ s.memo, (e.1 == key) = false) :
    Later s (s.record (.asked h key)) := by
  refine ⟨List.suffix_rfl, [(h, key)], ?_, by simpa using hnew⟩
  rw [Session.asked, Session.record, List.filterMap_append]
  rfl

/-- Work in which nothing is written needs no episode. -/
theorem Later.ledger (h : Later s s') (hmemo : s'.memo = s.memo) : Ledger s [] s' where
  memo := hmemo
  later := h
  distinct hs := by rwa [Distinct, hmemo]
  episode before E after hsplit := by simp at hsplit

/-- A member of two lists put together stands in the one or in the other. -/
theorem append_eq_append_cons {before after : List Episode}
    (h : es ++ es' = before ++ E :: after) :
    (∃ rest, es = before ++ E :: rest ∧ after = rest ++ es') ∨
      ∃ before', before = es ++ before' ∧ es' = before' ++ E :: after := by
  rcases List.append_eq_append_iff.1 h with ⟨before', rfl, hes'⟩ | ⟨_ | ⟨E', rest⟩, rfl, hafter⟩
  · exact .inr ⟨before', rfl, hes'⟩
  · exact .inr ⟨[], by simp, hafter.symm⟩
  · cases hafter
    exact .inl ⟨rest, rfl, rfl⟩

theorem Ledger.trans (h : Ledger s es t) (h' : Ledger t es' s') : Ledger s (es ++ es') s' where
  memo := by rw [h'.memo, h.memo, written_append, List.append_assoc]
  later := h.later.trans h'.later
  distinct hs := h'.distinct (h.distinct hs)
  episode before E after hsplit := by
    rcases append_eq_append_cons hsplit with ⟨rest, hes, -⟩ | ⟨before', rfl, hes'⟩
    · obtain ⟨earlier, hearlier, hbefore, hE, hlater⟩ := h.episode before E rest hes
      exact ⟨earlier, hearlier, hbefore, hE, hlater.trans h'.later⟩
    · obtain ⟨earlier, rfl, hbefore, hE, hlater⟩ := h'.episode before' E after hes'
      refine ⟨es ++ earlier, by rw [List.append_assoc], ?_, ?_, hlater⟩
      · rw [hbefore, h.memo, written_append, List.append_assoc]
      · rw [hE, h.memo, List.append_assoc es, written_append es, List.append_assoc (written _)]

theorem Ledger.of_eq (h : Ledger s es t) (hmemo : s'.memo = t.memo)
    (hasked : s'.asked = t.asked) : Ledger s es s' := by
  rw [← List.append_nil es]
  exact h.trans ((Later.of_eq hmemo hasked).ledger hmemo)

/-- An episode ends. What it writes was not remembered before. -/
theorem Ledger.close (h : Ledger E.before E.inner t)
    (hmemo : E.after.memo = E.entry.toList ++ t.memo) (hasked : E.after.asked = t.asked)
    (hnew : ∀ w, E.entry = some w → ∀ e ∈ t.memo, (w.1 == e.1) = false) :
    Ledger E.before (E.inner ++ [E]) E.after := by
  have hlater : Later t E.after :=
    ⟨hmemo ▸ List.suffix_append _ _, [], by rw [hasked, List.append_nil], by simp⟩
  have hE : E.after.memo = written (E.inner ++ [E]) ++ E.before.memo := by
    rw [hmemo, h.memo, written_append, written_singleton, List.append_assoc]
  constructor
  case memo => exact hE
  case later => exact h.later.trans hlater
  case distinct =>
    intro hs
    have ht := h.distinct hs
    rw [Distinct, hmemo]
    cases hentry : E.entry with
    | none => exact ht
    | some w => exact List.pairwise_cons.2 ⟨hnew w hentry, ht⟩
  case episode =>
    intro before U after hsplit
    rcases append_eq_append_cons hsplit with ⟨rest, hinner, -⟩ | ⟨before', rfl, hlast⟩
    · obtain ⟨earlier, hearlier, hbefore, hU, hlaterU⟩ := h.episode before U rest hinner
      exact ⟨earlier, hearlier, hbefore, hU, hlaterU.trans hlater⟩
    · -- The last of all is the episode itself, which began as the ledger did.
      obtain ⟨rfl, hUE, rfl⟩ : before' = [] ∧ U = E ∧ after = [] := by
        cases before' with
        | nil => simpa [eq_comm] using hlast
        | cons first before' => simp at hlast
      subst hUE
      refine ⟨[], by simp, rfl, ?_, .refl _⟩
      rw [List.append_nil, hE]

/-! ### Episodes keep the ledger -/

section Inner

variable (hsort : ∀ E, sort E → Ledger E.before (E.inner ++ [E]) E.after)

include hsort

theorem Pursues.ledger (h : Pursues sort i s es a s') : Ledger s es s' := by
  induction h with
  | answer => exact (Later.refl _).ledger rfl
  | ask hE _ ih =>
      rw [← List.singleton_append, ← List.append_assoc]
      exact (hsort _ hE).trans ih

/-- While handlers are asked for a key, it is not remembered. -/
theorem Consults.ledger (h : Consults handlers sort q order s es a s')
    (hnew : ∀ e ∈ s.memo, (e.1 == q.key) = false)
    (hne : ∀ U ∈ es, (U.key == q.key) = false) : Ledger s es s' := by
  induction h with
  | nil => exact (Later.refl _).ledger rfl
  | next hfirst _ ih =>
      -- The episodes on the way have not written under the key, so the next handler may be asked.
      rw [List.forall_mem_append] at hne
      have hfirst' := ((Later.record _ hnew).ledger rfl).trans (hfirst.ledger hsort)
      refine hfirst'.trans (ih ?_ hne.2)
      rw [hfirst'.memo]
      exact key_ne_of_mem_written hne.1 hnew
  | decided hfirst _ => exact ((Later.record _ hnew).ledger rfl).trans (hfirst.ledger hsort)

end Inner

/-! ### What an episode leaves -/

theorem Takes.inner_eq_nil (hE : Takes handlers n E) (hcourse : E.course ≠ .consulted) :
    E.inner = [] := by
  obtain ⟨m, hunfolds⟩ := hE.unfolds
  cases hunfolds with
  | refused | recalled | unbuilt | mismatched => rfl
  | consulted => exact absurd rfl hcourse

/-- Without the handlers nothing is written and nobody is asked. -/
theorem Takes.same_of_not_consulted (hE : Takes handlers n E) (hcourse : E.course ≠ .consulted) :
    E.after.memo = E.before.memo ∧ E.after.asked = E.before.asked := by
  obtain ⟨m, hunfolds⟩ := hE.unfolds
  cases hunfolds with
  | refused | recalled | unbuilt => exact ⟨rfl, rfl⟩
  | mismatched => exact ⟨memo_showTable _ _, asked_showTable _ _⟩
  | consulted => exact absurd rfl hcourse

/-- The handlers are asked only for what is not remembered. -/
theorem Takes.remembered?_eq_none (hE : Takes handlers n E) (hcourse : E.course = .consulted) :
    E.before.remembered? E.key = none := by
  obtain ⟨m, hunfolds⟩ := hE.unfolds
  cases hunfolds with
  | refused | recalled | unbuilt | mismatched => cases hcourse
  | consulted _ hnew => exact hnew

/-- An answer that is not a failure is remembered. -/
theorem Takes.exists_mem_memo (hE : Takes handlers n E) (hv : E.answer = .ok v) :
    ∃ e ∈ E.after.memo, (e.1 == E.key) = true ∧ e.2 = v := by
  obtain ⟨m, hunfolds⟩ := hE.unfolds
  cases hunfolds with
  | refused | unbuilt | mismatched => cases hv
  | recalled _ hremembered =>
      cases hv
      exact exists_mem_of_remembered hremembered
  | consulted =>
      cases hv
      exact ⟨_, List.mem_cons_self, BEq.rfl, rfl⟩

theorem memo_keep (hnew : ∀ e ∈ t.memo, (e.1 == key) = false) :
    (t.keep key a).memo = match a with
      | .ok v => (key, v) :: t.memo
      | .error _ => t.memo := by
  cases a with
  | error e => rfl
  | ok v =>
      have hkept : t.memo.filter (fun e => e.1 != key) = t.memo :=
        List.filter_eq_self.2 fun e he => by rw [bne, hnew e he]; rfl
      exact congrArg ((key, v) :: ·) hkept

section Pure

variable {nodes : Set Plan} {registry : Registry} (hids : nodes.InjOn Plan.id)
  (hpure : ∀ h, (handlers h).Pure nodes)

include hids hpure

/-- An episode and those on its way account for what it leaves to be remembered. -/
theorem Proper.ledger (hE : Proper handlers nodes registry n E) :
    Ledger E.before (E.inner ++ [E]) E.after := by
  induction n generalizing E with
  | zero => exact hE.takes.elim
  | succ n ih =>
      by_cases hcourse : E.course = .consulted
      · have hne := hE.key_ne hids hpure
        have hunfolds := hE.unfolds hids hpure
        clear hE
        cases hunfolds with
        | refused | recalled | unbuilt | mismatched => cases hcourse
        | @consulted q s s₁ found c es a hargs hnew hfound hkind hes =>
            have hnone := remembered?_eq_none_iff.1 hnew
            have hshown : Later s (showTable handlers found.table { s with cache := c }) :=
              .of_eq (memo_showTable _ _) (asked_showTable _ _)
            have hledger : Ledger s es s₁ := by
              refine (hshown.ledger (memo_showTable _ _)).trans (hes.ledger (fun U => ih) ?_ hne)
              rwa [memo_showTable]
            -- No question leads back to itself, so the answer is written under a new key.
            have hnew₁ : ∀ e ∈ s₁.memo, (e.1 == q.key) = false := by
              rw [hledger.memo]
              exact key_ne_of_mem_written hne hnone
            refine hledger.close ?_ ?_ ?_
            · rw [memo_keep hnew₁]
              cases a <;> rfl
            · cases a <;> rfl
            · intro w hw e he
              rw [← (entry_eq_some_iff.1 hw).2.2]
              exact beq_symm_false (hnew₁ e he)
      · obtain ⟨hmemo, hasked⟩ := hE.takes.same_of_not_consulted hcourse
        have hentry : E.entry = none := entry_of_ne hcourse
        have hinner : Ledger E.before E.inner E.before := by
          rw [hE.takes.inner_eq_nil hcourse]
          exact (Later.refl _).ledger rfl
        exact hinner.close (by rw [hentry, hmemo]; rfl) hasked (by rw [hentry]; nofun)

end Pure

end Session

end QueryPlan.Metadata
