import QueryPlan.Proofs.Plan.Preorder
import QueryPlan.Proofs.Plan.Run

/-!
# Which nodes there are

A register lists the nodes that have been made, together with the identities that are left.
It holds the inputs of every node it holds, every identity in it has been given out, and no
two nodes in it share one. Within a register, two nodes of one identity are therefore one
node, and an untouched input can be told by its identity.

A register grows when nodes are made. What is in it stays in it, and a node that was not in
it takes an identity that was left.
-/

namespace QueryPlan

/-- The nodes that have been made, and the identities that are left. -/
structure Register where
  nodes : List Plan
  supply : NodeSupply
  /-- The inputs of a node are there, too. -/
  input_mem : ∀ p ∈ nodes, ∀ i ∈ p.inputs, i ∈ nodes
  /-- The identities of the nodes have been given out. -/
  id_lt : ∀ p ∈ nodes, p.id.index < supply.next
  /-- No two nodes share an identity. -/
  eq_of_id_eq : ∀ p ∈ nodes, ∀ q ∈ nodes, p.id = q.id → p = q

namespace Register

variable {R R' R'' : Register} {p q : Plan}

/-- Before any node is made. -/
def empty (s : NodeSupply) : Register := ⟨[], s, by simp, by simp, by simp⟩

/-- The register after identities have gone to nodes that it does not list. -/
def skip (R : Register) (s : NodeSupply) (h : R.supply.next ≤ s.next) : Register :=
  { R with
    supply := s
    id_lt := fun p hp => Nat.lt_of_lt_of_le (R.id_lt p hp) h }

/-- The register after a node was made that takes the next identity. -/
def add (R : Register) (p : Plan) (hid : p.id = ⟨R.supply.next⟩)
    (hinputs : ∀ i ∈ p.inputs, i ∈ R.nodes) : Register where
  nodes := p :: R.nodes
  supply := R.supply.rest
  input_mem q hq i hi := by
    rcases List.mem_cons.1 hq with rfl | hq
    · exact List.mem_cons_of_mem _ (hinputs i hi)
    · exact List.mem_cons_of_mem _ (R.input_mem q hq i hi)
  id_lt q hq := by
    rcases List.mem_cons.1 hq with rfl | hq
    · simp [hid]
    · exact Nat.lt_succ_of_lt (R.id_lt q hq)
  eq_of_id_eq q hq r hr heq := by
    have hfresh : ∀ m ∈ R.nodes, m.id ≠ p.id := by
      intro m hm hmp
      have hlt := R.id_lt m hm
      rw [hmp, hid] at hlt
      exact Nat.lt_irrefl _ hlt
    rcases List.mem_cons.1 hq with hqp | hqR <;> rcases List.mem_cons.1 hr with hrp | hrR
    · rw [hqp, hrp]
    · exact absurd (hqp ▸ heq).symm (hfresh r hrR)
    · exact absurd (hrp ▸ heq) (hfresh q hqR)
    · exact R.eq_of_id_eq q hqR r hrR heq

/-- A register of a later time: nothing has gone, and new nodes have new identities. -/
structure Grows (R R' : Register) : Prop where
  nodes_subset : R.nodes ⊆ R'.nodes
  next_le : R.supply.next ≤ R'.supply.next
  old_or_new : ∀ p ∈ R'.nodes, p ∈ R.nodes ∨ R.supply.next ≤ p.id.index

theorem Grows.refl (R : Register) : R.Grows R :=
  ⟨List.Subset.refl _, Nat.le_refl _, fun _ hp => Or.inl hp⟩

theorem Grows.trans (h : R.Grows R') (h' : R'.Grows R'') : R.Grows R'' where
  nodes_subset := List.Subset.trans h.nodes_subset h'.nodes_subset
  next_le := Nat.le_trans h.next_le h'.next_le
  old_or_new p hp := by
    rcases h'.old_or_new p hp with hp | hp
    · exact h.old_or_new p hp
    · exact Or.inr (Nat.le_trans h.next_le hp)

theorem grows_add (R : Register) (p : Plan) (hid : p.id = ⟨R.supply.next⟩)
    (hinputs : ∀ i ∈ p.inputs, i ∈ R.nodes) : R.Grows (R.add p hid hinputs) where
  nodes_subset := List.subset_cons_self _ _
  next_le := Nat.le_succ _
  old_or_new q hq := by
    rcases List.mem_cons.1 hq with rfl | hq
    · exact Or.inr (by simp [hid])
    · exact Or.inl hq

theorem grows_skip (R : Register) (s : NodeSupply) (h : R.supply.next ≤ s.next) :
    R.Grows (R.skip s h) where
  nodes_subset := List.Subset.refl _
  next_le := h
  old_or_new _ hq := Or.inl hq

theorem exists_add (R : Register) (hid : p.id = ⟨R.supply.next⟩)
    (hinputs : ∀ i ∈ p.inputs, i ∈ R.nodes) :
    ∃ R', R.Grows R' ∧ R'.supply = R.supply.rest ∧ p ∈ R'.nodes :=
  ⟨R.add p hid hinputs, R.grows_add p hid hinputs, rfl, List.mem_cons_self⟩

/-- All nodes of a plan in the register are in it. -/
theorem preorder_subset (R : Register) (hp : p ∈ R.nodes) : p.preorder ⊆ R.nodes := by
  induction p with
  | source h op =>
      intro n hn
      rwa [Plan.mem_preorder_source.1 hn]
  | transform h op input ih =>
      have hinput : input ∈ R.nodes := R.input_mem _ hp input (by simp [Plan.inputs])
      intro n hn
      rcases Plan.mem_preorder_transform.1 hn with rfl | hn
      · exact hp
      · exact ih hinput hn
  | join h algorithm spec left right ihl ihr =>
      have hleft : left ∈ R.nodes := R.input_mem _ hp left (by simp [Plan.inputs])
      have hright : right ∈ R.nodes := R.input_mem _ hp right (by simp [Plan.inputs])
      intro n hn
      rcases Plan.mem_preorder_join.1 hn with rfl | hn | hn
      · exact hp
      · exact ihl hleft hn
      · exact ihr hright hn

/-- The identity of a node is that of no node below it. -/
theorem id_ne_of_mem_preorder (R : Register) (hp : p ∈ R.nodes) {i n : Plan}
    (hi : i ∈ p.inputs) (hn : n ∈ i.preorder) : n.id ≠ p.id := by
  intro heq
  have hnodes : n ∈ R.nodes := R.preorder_subset (R.input_mem p hp i hi) hn
  have hnp : n = p := R.eq_of_id_eq n hnodes p hp heq
  exact Plan.notMem_preorder_of_mem_inputs hi (hnp ▸ hn)

theorem eq_of_map_id_eq (R : Register) {as bs : List Plan} (has : ∀ a ∈ as, a ∈ R.nodes)
    (hbs : ∀ b ∈ bs, b ∈ R.nodes) (heq : as.map Plan.id = bs.map Plan.id) : as = bs := by
  induction as generalizing bs with
  | nil => simpa [eq_comm] using heq
  | cons a as ih =>
      cases bs with
      | nil => simp at heq
      | cons b bs =>
          rw [List.forall_mem_cons] at has hbs
          rw [List.map_cons, List.map_cons, List.cons.injEq] at heq
          rw [R.eq_of_id_eq a has.1 b hbs.1 heq.1, ih has.2 hbs.2 heq.2]

/-- A node has the given inputs if they have the identities of its own. -/
theorem hasInputs_iff (R : Register) {inputs : List Plan} (hp : p ∈ R.nodes)
    (hinputs : ∀ i ∈ inputs, i ∈ R.nodes) : p.hasInputs inputs = true ↔ inputs = p.inputs := by
  rw [Plan.hasInputs, beq_iff_eq]
  constructor
  · intro heq
    exact (R.eq_of_map_id_eq (R.input_mem p hp) hinputs heq).symm
  · rintro rfl
    rfl

end Register

end QueryPlan
