import QueryPlan.Proofs.JoinNames.Alignment
import QueryPlan.Proofs.Plan.Equality
import QueryPlan.Proofs.Plan.Yields

/-!
# Inserted projections

A pass that only inserts projections can be undone by taking them out again. Which ones they
are is known by their identities: the pass made them, so no node that was there before has one
of these identities, and neither has any other node that the pass made.

`Inserts s p q ids` says that `q` is `p` with the projections of the identities `ids` inserted.
It is carried along a plan from the inputs of a node to the node itself, and for this the
identities that were given out at one input must not occur at the other.
-/

namespace QueryPlan

namespace Plan

/-- The plan without the one-input nodes of the given identities: the input of such a node
takes its place. -/
def without (ids : List NodeId) : Plan → Plan
  | .source h op => .source h op
  | .transform h op input =>
    if h.id ∈ ids then input.without ids else .transform h op (input.without ids)
  | .join h algorithm spec left right =>
    .join h algorithm spec (left.without ids) (right.without ids)

/-- Below a plan `p` and at its root, projections of the identities `ids` were inserted, and
the result is `q`. Identities from `s` on were left when this began. -/
structure InsertsBelow (s : NodeSupply) (p q : Plan) (ids : List NodeId) : Prop where
  /-- Every node was in the plan or is new. -/
  old_or_new : ∀ n ∈ q.preorder, n ∈ p.preorder ∨ s.next ≤ n.id.index
  /-- The inserted nodes are new ones. -/
  made : ∀ id ∈ ids, s.next ≤ id.index ∧ ∃ n ∈ q.preorder, n.id = id
  /-- They hand on the row of their input. -/
  isIdentityProjection : ∀ n ∈ q.preorder, n.id ∈ ids → n.isIdentityProjection = true
  /-- Right above an inserted node there is a join. -/
  isJoin : ∀ n ∈ q.preorder, ∀ i ∈ n.inputs, i.id ∈ ids → n.kind.isJoin = true
  /-- Without the inserted nodes the plan is the same as it was. -/
  same : (q.without ids).same p = true

/-- The plan `q` is `p` with the projections of the identities `ids` inserted right below
joins. Identities from `s` on were left when this began. -/
structure Inserts (s : NodeSupply) (p q : Plan) (ids : List NodeId) : Prop
    extends InsertsBelow s p q ids where
  root : q.id ∉ ids

/-- The inputs of a join under the names that its row has for them. The left input is renamed
first; identities from `s` on are left before that, and from `t` on after it. -/
structure AlignedInputs (s t : NodeSupply) (row : Schema) (spec : JoinSpec)
    (left right left' right' : Plan) : Prop where
  left_renamed : Renamed (row.namesAt 0 left.width) left left'
  right_renamed : Renamed (spec.rightNames row left right) right right'
  left_new : SelfOrNew s left left'
  left_lt : left'.id.index < t.next
  right_new : SelfOrNew t right right'
  next_le : s.next ≤ t.next

variable {s s' : NodeSupply} {p q q' : Plan} {ids ids' : List NodeId} {h h' : Header}

theorem Renamed.mem_preorder {names : List String} {n : Plan} (hrenamed : Renamed names q q')
    (hn : n ∈ q'.preorder) : n = q' ∨ n ∈ q.preorder := by
  cases hrenamed with
  | kept => exact Or.inr hn
  | renamed => exact mem_preorder_transform.1 hn

theorem mem_preorder_of_eq (heq : q = p) : q ∈ p.preorder := heq ▸ mem_preorder_self q

theorem without_congr (hids : ∀ n ∈ p.preorder, n.id ∈ ids ↔ n.id ∈ ids') :
    p.without ids = p.without ids' := by
  induction p with
  | source h op => rfl
  | transform h op input ih =>
      have hroot : h.id ∈ ids ↔ h.id ∈ ids' := hids _ (mem_preorder_self _)
      have hinput := ih fun n hn => hids n (mem_preorder_transform.2 (Or.inr hn))
      rw [without, without, hinput]
      exact if_congr hroot rfl rfl
  | join h algorithm spec left right ihl ihr =>
      rw [without, without, ihl fun n hn => hids n (mem_preorder_join.2 (Or.inr (Or.inl hn))),
        ihr fun n hn => hids n (mem_preorder_join.2 (Or.inr (Or.inr hn)))]

theorem without_transform_of_notMem {op : Transform} {input : Plan} (hroot : h.id ∉ ids) :
    (transform h op input).without ids = .transform h op (input.without ids) := by
  rw [without, if_neg hroot]

namespace InsertsBelow

theorem mono (hin : InsertsBelow s' p q ids) (hle : s.next ≤ s'.next) :
    InsertsBelow s p q ids where
  old_or_new n hn := (hin.old_or_new n hn).imp_right (Nat.le_trans hle)
  made id hid := ⟨Nat.le_trans hle (hin.made id hid).1, (hin.made id hid).2⟩
  isIdentityProjection := hin.isIdentityProjection
  isJoin := hin.isJoin
  same := hin.same

/-- Identities that were given out before `s'` are those of the inserted nodes. -/
theorem id_lt (hin : InsertsBelow s p q ids) (hq : ∀ n ∈ q.preorder, n.id.index < s'.next) :
    ∀ id ∈ ids, id.index < s'.next := by
  intro id hid
  obtain ⟨-, n, hn, rfl⟩ := hin.made id hid
  exact hq n hn

/-- A node over the new plan is no inserted one, since those are all below it. -/
theorem id_notMem {R : Register} {r : Plan} (hin : InsertsBelow s p q ids) (hr : r ∈ R.nodes)
    (hq : q ∈ r.inputs) : r.id ∉ ids := by
  intro hid
  obtain ⟨-, n, hn, heq⟩ := hin.made _ hid
  exact R.id_ne_of_mem_preorder hr hq hn heq

end InsertsBelow

/-- A projection that hands on the row of the new plan is one more inserted node. -/
theorem Inserts.insertsBelow_project {allowDuplicates : Bool} (hin : Inserts s p q ids)
    (hid : s.next ≤ h.id.index) (hq : ∀ n ∈ q.preorder, n.id ≠ h.id) :
    InsertsBelow s p (.transform h (.project q.schema.identity allowDuplicates) q)
      (h.id :: ids) := by
  have hold : ∀ n ∈ q.preorder, n.id ∈ h.id :: ids ↔ n.id ∈ ids := fun n hn => by
    rw [List.mem_cons, or_iff_right (hq n hn)]
  constructor
  case old_or_new =>
    intro n hn
    rcases mem_preorder_transform.1 hn with rfl | hn
    · exact Or.inr hid
    · exact hin.old_or_new n hn
  case made =>
    refine List.forall_mem_cons.2 ⟨⟨hid, _, mem_preorder_self _, rfl⟩, ?_⟩
    intro id hmem
    obtain ⟨hs, n, hn, rfl⟩ := hin.made id hmem
    exact ⟨hs, n, mem_preorder_transform.2 (Or.inr hn), rfl⟩
  case isIdentityProjection =>
    intro n hn hmem
    rcases mem_preorder_transform.1 hn with rfl | hn
    · exact handsOn_iff.2 rfl
    · exact hin.isIdentityProjection n hn ((hold n hn).1 hmem)
  case isJoin =>
    intro n hn i hi hmem
    rcases mem_preorder_transform.1 hn with rfl | hn
    · rw [inputs, List.mem_singleton] at hi
      rw [hi, hold q (mem_preorder_self q)] at hmem
      exact absurd hmem hin.root
    · have hbelow : i ∈ q.preorder := preorder_subset hn (mem_preorder_of_mem_inputs hi)
      exact hin.isJoin n hn i hi ((hold i hbelow).1 hmem)
  case same =>
    rw [without, if_pos List.mem_cons_self, without_congr hold]
    exact hin.same

/-- A plan that is renamed has at most one more inserted node, and this is its root. -/
theorem Inserts.rename {names : List String} (hin : Inserts s p q ids)
    (hrenamed : Renamed names q q') (hnew : SelfOrNew s' q q') (hle : s.next ≤ s'.next)
    (hq : ∀ n ∈ q.preorder, n.id.index < s'.next) :
    ∃ ids', InsertsBelow s p q' ids' ∧
      ∀ id ∈ ids', id ∈ ids ∨ (id = q'.id ∧ s'.next ≤ id.index) := by
  cases hrenamed with
  | kept => exact ⟨ids, hin.toInsertsBelow, fun id hid => Or.inl hid⟩
  | @renamed h =>
      have hid : s'.next ≤ h.id.index := hnew.resolve_left fun heq => by
        have hsize := congrArg sizeOf heq
        simp at hsize
      have hne : ∀ n ∈ q.preorder, n.id ≠ h.id := fun n hn heq =>
        Nat.not_le.2 (hq n hn) (heq ▸ hid)
      exact ⟨h.id :: ids, hin.insertsBelow_project (Nat.le_trans hle hid) hne,
        List.forall_mem_cons.2 ⟨Or.inr ⟨rfl, hid⟩, fun id hmem => Or.inl hmem⟩⟩

namespace Inserts

theorem source {op : Source} : Inserts s (.source h op) (.source h op) [] where
  old_or_new _ hn := Or.inl hn
  made _ hid := absurd hid List.not_mem_nil
  isIdentityProjection _ _ hid := absurd hid List.not_mem_nil
  isJoin _ _ _ _ hid := absurd hid List.not_mem_nil
  same := same_refl _
  root := List.not_mem_nil

variable {R : Register}

/-- The inputs of a join whose own inputs were worked on one after the other have no inserted
node in common: `s`, `s₁` and `s₂` are what was left before the left input, between the two
and before the join. -/
theorem separate {s₁ s₂ t : NodeSupply} {row : Schema} {spec : JoinSpec}
    {left left' left'' right right' right'' : Plan} (hl : Inserts s left left' ids)
    (hr : Inserts s₁ right right' ids')
    (haligned : AlignedInputs s₂ t row spec left' right' left'' right'')
    (hright : ∀ n ∈ right.preorder, n.id.index < s.next)
    (hleft' : ∀ n ∈ left'.preorder, n.id.index < s₁.next)
    (hright' : ∀ n ∈ right'.preorder, n.id.index < s₂.next) (hs₁ : s.next ≤ s₁.next)
    (hs₂ : s₁.next ≤ s₂.next) :
    ∃ idsₗ idsᵣ, InsertsBelow s left left'' idsₗ ∧ InsertsBelow s right right'' idsᵣ ∧
      (∀ n ∈ left''.preorder, n.id ∉ idsᵣ) ∧ (∀ n ∈ right''.preorder, n.id ∉ idsₗ) := by
  have ht := haligned.next_le
  obtain ⟨idsₗ, hlin, hlids⟩ := hl.rename haligned.left_renamed haligned.left_new
    (Nat.le_trans hs₁ hs₂) fun n hn => Nat.lt_of_lt_of_le (hleft' n hn) hs₂
  obtain ⟨idsᵣ, hrin, hrids⟩ := hr.rename haligned.right_renamed haligned.right_new
    (Nat.le_trans hs₂ ht) fun n hn => Nat.lt_of_lt_of_le (hright' n hn) ht
  refine ⟨idsₗ, idsᵣ, hlin, hrin.mono hs₁, ?_, ?_⟩
  -- At the left input the identities are below `s₁`, and between `s₂` and `t` at its top.
  · intro n hn hid
    have hrange : n.id.index < s₁.next ∨ s₂.next ≤ n.id.index ∧ n.id.index < t.next := by
      rcases haligned.left_renamed.mem_preorder hn with rfl | hn
      · rcases haligned.left_new with heq | hnew
        · exact Or.inl (heq ▸ hleft' _ (heq ▸ mem_preorder_self _))
        · exact Or.inr ⟨hnew, haligned.left_lt⟩
      · exact Or.inl (hleft' n hn)
    rcases hrids _ hid with hid | ⟨-, hid⟩
    · have hlow := (hr.made _ hid).1
      have hhigh := hr.id_lt hright' _ hid
      omega
    · omega
  -- At the right input they are below `s`, between `s₁` and `s₂`, and from `t` on at its top.
  · intro n hn hid
    have hrange : n.id.index < s.next ∨ (s₁.next ≤ n.id.index ∧ n.id.index < s₂.next) ∨
        t.next ≤ n.id.index := by
      have hold : ∀ m ∈ right'.preorder, m.id.index < s.next ∨
          s₁.next ≤ m.id.index ∧ m.id.index < s₂.next := fun m hm =>
        (hr.old_or_new m hm).imp (hright m) fun hnew => ⟨hnew, hright' m hm⟩
      rcases haligned.right_renamed.mem_preorder hn with rfl | hn
      · rcases haligned.right_new with heq | hnew
        · have hrange := hold right' (mem_preorder_self _)
          rw [← heq] at hrange
          exact hrange.imp_right Or.inl
        · exact Or.inr (Or.inr hnew)
      · exact (hold n hn).imp_right Or.inl
    rcases hlids _ hid with hid | ⟨heq, hid⟩
    · have hlow := (hl.made _ hid).1
      have hhigh := hl.id_lt hleft' _ hid
      omega
    · have hhigh := haligned.left_lt
      rw [heq] at hid hrange
      omega

/-- A node over the new input is no inserted one, and nothing is inserted right below it. -/
theorem transform {op : Transform} {input input' : Plan} (hin : Inserts s input input' ids)
    (hmem : .transform h' op input' ∈ R.nodes) (hschema : h'.schema = h.schema)
    (htraits : h'.traits = h.traits)
    (hnew : SelfOrNew s (.transform h op input) (.transform h' op input')) :
    Inserts s (.transform h op input) (.transform h' op input') ids := by
  have hroot : h'.id ∉ ids := hin.id_notMem hmem (List.mem_singleton_self _)
  constructor
  case root => exact hroot
  constructor
  case old_or_new =>
    intro n hn
    rcases mem_preorder_transform.1 hn with rfl | hn
    · exact hnew.imp_left mem_preorder_of_eq
    · exact (hin.old_or_new n hn).imp_left fun hn => mem_preorder_transform.2 (Or.inr hn)
  case made =>
    intro id hid
    obtain ⟨hs, n, hn, rfl⟩ := hin.made id hid
    exact ⟨hs, n, mem_preorder_transform.2 (Or.inr hn), rfl⟩
  case isIdentityProjection =>
    intro n hn hid
    rcases mem_preorder_transform.1 hn with rfl | hn
    · exact absurd hid hroot
    · exact hin.isIdentityProjection n hn hid
  case isJoin =>
    intro n hn i hi hid
    rcases mem_preorder_transform.1 hn with rfl | hn
    · rw [inputs, List.mem_singleton] at hi
      exact absurd (hi ▸ hid) hin.root
    · exact hin.isJoin n hn i hi hid
  case same =>
    rw [without_transform_of_notMem hroot]
    exact same_transform hschema htraits hin.same

/-- What was inserted at either input of a join was inserted below the join, if no identity
given out at one of them occurs at the other. -/
theorem join {algorithm : JoinAlgorithm} {spec : JoinSpec} {left left' right right' : Plan}
    (hl : InsertsBelow s left left' ids) (hr : InsertsBelow s right right' ids')
    (hlr : ∀ n ∈ left'.preorder, n.id ∉ ids') (hrl : ∀ n ∈ right'.preorder, n.id ∉ ids)
    (hmem : .join h' algorithm spec left' right' ∈ R.nodes) (hschema : h'.schema = h.schema)
    (htraits : h'.traits = h.traits)
    (hnew : SelfOrNew s (.join h algorithm spec left right)
      (.join h' algorithm spec left' right')) :
    Inserts s (.join h algorithm spec left right) (.join h' algorithm spec left' right')
      (ids ++ ids') := by
  have hleft : ∀ n ∈ left'.preorder, n.id ∈ ids ++ ids' ↔ n.id ∈ ids := fun n hn => by
    rw [List.mem_append, or_iff_left (hlr n hn)]
  have hright : ∀ n ∈ right'.preorder, n.id ∈ ids ++ ids' ↔ n.id ∈ ids' := fun n hn => by
    rw [List.mem_append, or_iff_right (hrl n hn)]
  have hroot : h'.id ∉ ids ++ ids' := fun hid => (List.mem_append.1 hid).elim
    (hl.id_notMem hmem List.mem_cons_self)
    (hr.id_notMem hmem (List.mem_cons_of_mem _ List.mem_cons_self))
  constructor
  case root => exact hroot
  constructor
  case old_or_new =>
    intro n hn
    rcases mem_preorder_join.1 hn with rfl | hn | hn
    · exact hnew.imp_left mem_preorder_of_eq
    · exact (hl.old_or_new n hn).imp_left fun hn => mem_preorder_join.2 (Or.inr (Or.inl hn))
    · exact (hr.old_or_new n hn).imp_left fun hn => mem_preorder_join.2 (Or.inr (Or.inr hn))
  case made =>
    intro id hid
    rcases List.mem_append.1 hid with hid | hid
    · obtain ⟨hs, n, hn, rfl⟩ := hl.made id hid
      exact ⟨hs, n, mem_preorder_join.2 (Or.inr (Or.inl hn)), rfl⟩
    · obtain ⟨hs, n, hn, rfl⟩ := hr.made id hid
      exact ⟨hs, n, mem_preorder_join.2 (Or.inr (Or.inr hn)), rfl⟩
  case isIdentityProjection =>
    intro n hn hid
    rcases mem_preorder_join.1 hn with rfl | hn | hn
    · exact absurd hid hroot
    · exact hl.isIdentityProjection n hn ((hleft n hn).1 hid)
    · exact hr.isIdentityProjection n hn ((hright n hn).1 hid)
  case isJoin =>
    intro n hn i hi hid
    rcases mem_preorder_join.1 hn with rfl | hn | hn
    · cases algorithm <;> rfl
    · have hbelow : i ∈ left'.preorder := preorder_subset hn (mem_preorder_of_mem_inputs hi)
      exact hl.isJoin n hn i hi ((hleft i hbelow).1 hid)
    · have hbelow : i ∈ right'.preorder := preorder_subset hn (mem_preorder_of_mem_inputs hi)
      exact hr.isJoin n hn i hi ((hright i hbelow).1 hid)
  case same =>
    rw [without, without_congr hleft, without_congr hright]
    exact same_join hschema htraits hl.same hr.same

end Inserts

end Plan

end QueryPlan
