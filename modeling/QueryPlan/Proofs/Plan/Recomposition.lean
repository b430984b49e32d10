import QueryPlan.Proofs.Plan.Register
import QueryPlan.Proofs.Plan.WellFormed

/-!
# Plans put together again

A pass takes a plan apart and puts it together again. It goes down to the input of an operator
and covers what it has made of it with a new node, it joins what has become of the inputs of a
join, and it leaves subplans as they are. `Recomposed s p q s'` says that this is how `q` has
come from `p` while the identities from `s` to `s'` were given out.

Whatever is done in this way, a node of the result was a node of the plan or is new, a plan
without shared subplans stays one, and a new node carries what its operator derives from its
inputs. The last of these is what it takes to make every node again over inputs that are the
same.
-/

namespace QueryPlan

namespace Plan

variable {p q r n : Plan} {s s' s₁ : NodeSupply} {h : Header} {op : Transform} {input : Plan}

/-- The topmost node carries what it would carry if it were made again over its inputs. -/
def Rederives : Plan → Prop
  | .source _ _ => True
  | .transform h op input => derivedSchema h.schema op input.schema = .ok h.schema
  | .join h _ spec left right =>
    h.schema = .join left.schema right.schema spec.joinType ∧
      h.traits.forgetDistribution = h.traits

theorem RowFits.rederives (hfits : p.RowFits) : p.Rederives := by
  cases p with
  | source h op => trivial
  | transform h op input => exact Transform.Fits.derivedSchema_eq hfits
  | join h algorithm spec left right =>
      exact ⟨hfits.1.2.2, Traits.forgetDistribution_of_any hfits.2⟩

/-- A row that has been derived is derived again. -/
theorem derivedSchema_again {declared row schema : Schema}
    (hderived : derivedSchema declared op row = .ok schema) :
    derivedSchema schema op row = .ok schema := by
  cases op with
  | project exprs allowDuplicates | writer target => rfl
  | filter predicate | aggregate groupBy aggregates | sort order | limit offset count
  | exchange distribution | screen => exact hderived

/-- The node took one of the identities from `s` to `s'`. -/
def MadeBetween (s s' : NodeSupply) (n : Plan) : Prop :=
  s.next ≤ n.id.index ∧ n.id.index < s'.next

theorem MadeBetween.mono {t t' : NodeSupply} (hn : MadeBetween s s' n) (ht : t.next ≤ s.next)
    (ht' : s'.next ≤ t'.next) : MadeBetween t t' n :=
  ⟨Nat.le_trans ht hn.1, Nat.lt_of_lt_of_le hn.2 ht'⟩

/-- No identity occurs twice in the plan, so no node of it has two places. -/
def Unshared (p : Plan) : Prop := (p.preorder.map Plan.id).Nodup

theorem unshared_transform :
    (transform h op input).Unshared ↔ (∀ n ∈ input.preorder, n.id ≠ h.id) ∧ input.Unshared := by
  rw [Unshared, preorder, List.map_cons, List.nodup_cons, List.mem_map]
  refine and_congr_left fun _ => ?_
  constructor
  · exact fun hnot n hn heq => hnot ⟨n, hn, heq⟩
  · rintro hne ⟨n, hn, heq⟩
    exact hne n hn heq

theorem unshared_join {algorithm : JoinAlgorithm} {spec : JoinSpec} {left right : Plan} :
    (join h algorithm spec left right).Unshared ↔
      (∀ n, n ∈ left.preorder ∨ n ∈ right.preorder → n.id ≠ h.id) ∧ left.Unshared ∧
        right.Unshared ∧ ∀ n ∈ left.preorder, ∀ m ∈ right.preorder, n.id ≠ m.id := by
  rw [Unshared, preorder, List.map_cons, List.nodup_cons, List.map_append, List.nodup_append,
    ← List.map_append]
  refine and_congr ?_ (and_congr_right fun _ => and_congr_right fun _ => ?_)
  · simp [id, header, List.mem_map, not_or, or_imp, forall_and]
  · simp [List.mem_map]

theorem ne_of_index_lt_of_le {i j : NodeId} {k : Nat} (hi : i.index < k) (hj : k ≤ j.index) :
    i ≠ j := by
  rintro rfl
  exact Nat.not_le.2 hi hj

section New

variable {schema : Schema} {traits : Traits}

/-- A new node has an identity of its own. -/
theorem unshared_new_transform (hinput : input.Unshared)
    (hlt : ∀ n ∈ input.preorder, n.id.index < s.next) :
    (transform (s.header schema traits) op input).Unshared :=
  unshared_transform.2 ⟨fun n hn => ne_of_index_lt_of_le (hlt n hn) (Nat.le_refl _), hinput⟩

theorem unshared_new_join {algorithm : JoinAlgorithm} {spec : JoinSpec} {left right : Plan}
    (hleft : left.Unshared) (hright : right.Unshared)
    (hllt : ∀ n ∈ left.preorder, n.id.index < s.next)
    (hrlt : ∀ n ∈ right.preorder, n.id.index < s.next)
    (hapart : ∀ n ∈ left.preorder, ∀ m ∈ right.preorder, n.id ≠ m.id) :
    (join (s.header schema traits) algorithm spec left right).Unshared :=
  unshared_join.2 ⟨fun n hn => ne_of_index_lt_of_le (hn.elim (hllt n) (hrlt n)) (Nat.le_refl _),
    hleft, hright, hapart⟩

end New

/-- The second plan has come from the first by parts of it being left as they are, uncovered,
covered with new nodes and joined by them. -/
inductive Recomposed : NodeSupply → Plan → Plan → NodeSupply → Prop where
  /-- What has been made besides has no place in the plan. -/
  | skip {s s' : NodeSupply} {p : Plan} : s.next ≤ s'.next → Recomposed s p p s'
  | uncover {s : NodeSupply} {h : Header} {op : Transform} {input : Plan} :
    Recomposed s (.transform h op input) input s
  | cover {s : NodeSupply} {schema : Schema} {traits : Traits} {op : Transform} {p : Plan} :
    Rederives (.transform (s.header schema traits) op p) →
    Recomposed s p (.transform (s.header schema traits) op p) s.rest
  | join {s s₁ s₂ : NodeSupply} {h : Header} {schema : Schema} {traits : Traits}
      {algorithm : JoinAlgorithm} {spec : JoinSpec} {left left' right right' : Plan} :
    Recomposed s left left' s₁ → Recomposed s₁ right right' s₂ →
    Rederives (.join (s₂.header schema traits) algorithm spec left' right') →
    Recomposed s (.join h algorithm spec left right)
      (.join (s₂.header schema traits) algorithm spec left' right') s₂.rest
  | trans {s s₁ s' : NodeSupply} {p q r : Plan} :
    Recomposed s p q s₁ → Recomposed s₁ q r s' → Recomposed s p r s'

namespace Recomposed

theorem refl (s : NodeSupply) (p : Plan) : Recomposed s p p s := .skip (Nat.le_refl _)

/-- An operator is put over what has become of its input. -/
theorem transform {op' : Transform} {input' : Plan} {schema : Schema} {traits : Traits}
    (hinput : Recomposed s input input' s₁)
    (hnode : Rederives (.transform (s₁.header schema traits) op' input')) :
    Recomposed s (.transform h op input) (.transform (s₁.header schema traits) op' input')
      s₁.rest :=
  .trans .uncover (.trans hinput (.cover hnode))

theorem next_le (hq : Recomposed s p q s') : s.next ≤ s'.next := by
  induction hq with
  | skip hle => exact hle
  | uncover => exact Nat.le_refl _
  | cover => exact Nat.le_succ _
  | join _ _ _ ihl ihr => exact Nat.le_succ_of_le (Nat.le_trans ihl ihr)
  | trans _ _ ih ih' => exact Nat.le_trans ih ih'

/-- A node of the result was there or is new. -/
theorem old_or_new (hq : Recomposed s p q s') (hn : n ∈ q.preorder) :
    n ∈ p.preorder ∨ MadeBetween s s' n := by
  induction hq with
  | skip => exact Or.inl hn
  | uncover => exact Or.inl (mem_preorder_transform.2 (Or.inr hn))
  | cover =>
      rcases mem_preorder_transform.1 hn with rfl | hn
      · exact Or.inr ⟨Nat.le_refl _, Nat.lt_succ_self _⟩
      · exact Or.inl hn
  | join hleft hright _ ihl ihr =>
      rcases mem_preorder_join.1 hn with rfl | hn | hn
      · exact Or.inr ⟨Nat.le_trans hleft.next_le hright.next_le, Nat.lt_succ_self _⟩
      · refine (ihl hn).imp (fun hold => mem_preorder_join.2 (Or.inr (Or.inl hold))) fun hnew => ?_
        exact hnew.mono (Nat.le_refl _) (Nat.le_succ_of_le hright.next_le)
      · refine (ihr hn).imp (fun hold => mem_preorder_join.2 (Or.inr (Or.inr hold))) fun hnew => ?_
        exact hnew.mono hleft.next_le (Nat.le_succ _)
  | trans hpq hqr ih ih' =>
      rcases ih' hn with hold | hnew
      · exact (ih hold).imp_right fun hnew => hnew.mono (Nat.le_refl _) hqr.next_le
      · exact Or.inr (hnew.mono hpq.next_le (Nat.le_refl _))

theorem id_lt (hq : Recomposed s p q s') (hold : ∀ n ∈ p.preorder, n.id.index < s.next) :
    ∀ n ∈ q.preorder, n.id.index < s'.next := by
  intro n hn
  rcases hq.old_or_new hn with hn | hnew
  · exact Nat.lt_of_lt_of_le (hold n hn) hq.next_le
  · exact hnew.2

/-- Nothing is shared that was not shared before. New nodes differ from old ones, and those
made on the left of a join from those made later on the right. -/
theorem unshared (hq : Recomposed s p q s') (hold : ∀ n ∈ p.preorder, n.id.index < s.next)
    (hp : p.Unshared) : q.Unshared := by
  induction hq with
  | skip => exact hp
  | uncover => exact (unshared_transform.1 hp).2
  | cover => exact unshared_new_transform hp hold
  | @join s s₁ s₂ _ _ _ _ _ left left' right right' hleft hright _ ihl ihr =>
      obtain ⟨-, hpl, hpr, hapart⟩ := unshared_join.1 hp
      have hlold : ∀ n ∈ left.preorder, n.id.index < s.next := fun n hn =>
        hold n (mem_preorder_join.2 (Or.inr (Or.inl hn)))
      have hrold : ∀ n ∈ right.preorder, n.id.index < s.next := fun n hn =>
        hold n (mem_preorder_join.2 (Or.inr (Or.inr hn)))
      have hrold₁ : ∀ n ∈ right.preorder, n.id.index < s₁.next := fun n hn =>
        Nat.lt_of_lt_of_le (hrold n hn) hleft.next_le
      have hllt := hleft.id_lt hlold
      refine unshared_new_join (ihl hlold hpl) (ihr hrold₁ hpr)
        (fun n hn => Nat.lt_of_lt_of_le (hllt n hn) hright.next_le) (hright.id_lt hrold₁)
        fun n hn m hm => ?_
      -- The left was dealt with first, so what is new on the right is new there, too.
      rcases hright.old_or_new hm with hm | hnew
      · rcases hleft.old_or_new hn with hn | hnew
        · exact hapart n hn m hm
        · exact (ne_of_index_lt_of_le (hrold m hm) hnew.1).symm
      · exact ne_of_index_lt_of_le (hllt n hn) hnew.1
  | trans hpq _ ih ih' => exact ih' (hpq.id_lt hold) (ih hold hp)

theorem everywhere_rederives (hq : Recomposed s p q s') (hp : p.Everywhere Rederives) :
    q.Everywhere Rederives := by
  induction hq with
  | skip => exact hp
  | uncover => exact (everywhere_transform.1 hp).2
  | cover hnode => exact everywhere_transform.2 ⟨hnode, hp⟩
  | join _ _ hnode ihl ihr =>
      obtain ⟨-, hleft, hright⟩ := everywhere_join.1 hp
      exact everywhere_join.2 ⟨hnode, ihl hleft, ihr hright⟩
  | trans _ _ ih ih' => exact ih' (ih hp)

/-- The new nodes are made over nodes that are there. -/
theorem exists_register {R : Register} (hq : Recomposed R.supply p q s') (hp : p ∈ R.nodes) :
    ∃ R', R.Grows R' ∧ R'.supply = s' ∧ q ∈ R'.nodes := by
  -- The supply is an index of the relation, so it has to be a variable for the induction.
  obtain ⟨s, hs⟩ : ∃ s, s = R.supply := ⟨_, rfl⟩
  rw [← hs] at hq
  induction hq generalizing R with
  | skip hle => exact ⟨R.skip _ (hs ▸ hle), R.grows_skip _ _, rfl, hp⟩
  | uncover => exact ⟨R, .refl R, hs.symm, R.input_mem _ hp _ (by simp [inputs])⟩
  | cover =>
      rw [hs]
      exact R.exists_add rfl (List.forall_mem_singleton.2 hp)
  | @join _ _ _ _ schema traits algorithm spec left left' right right' _ _ _ ihl ihr =>
      obtain ⟨R₁, hgrows₁, rfl, hleft'⟩ := ihl (R.input_mem _ hp left (by simp [inputs])) hs
      have hright := hgrows₁.nodes_subset (R.input_mem _ hp right (by simp [inputs]))
      obtain ⟨R₂, hgrows₂, rfl, hright'⟩ := ihr hright rfl
      obtain ⟨R₃, hgrows₃, hsupply, hmem⟩ := R₂.exists_add rfl
        (p := .join (R₂.supply.header schema traits) algorithm spec left' right')
        (by simp [inputs, hgrows₂.nodes_subset hleft', hright'])
      exact ⟨R₃, (hgrows₁.trans hgrows₂).trans hgrows₃, hsupply, hmem⟩
  | trans _ _ ih ih' =>
      obtain ⟨R₁, hgrows₁, rfl, hmem⟩ := ih hp hs
      obtain ⟨R₂, hgrows₂, hsupply, hmem'⟩ := ih' hmem rfl
      exact ⟨R₂, hgrows₁.trans hgrows₂, hsupply, hmem'⟩

end Recomposed

end Plan

end QueryPlan
