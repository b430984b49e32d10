import QueryPlan.Plan.Basic

/-!
# The nodes of a plan

Preorder lists every node before its inputs. A property that is to hold throughout a plan is
a property of every node in this list, and it is proved along the tree: of the topmost node,
and throughout its inputs.
-/

namespace QueryPlan

namespace Plan

variable {p q n : Plan}

/-- What holds of a node as soon as it does of its inputs holds of every plan. -/
theorem inputs_induction {motive : Plan → Prop}
    (node : ∀ p : Plan, (∀ i ∈ p.inputs, motive i) → motive p) (p : Plan) : motive p := by
  induction p with
  | source h op => exact node _ (by simp [inputs])
  | transform h op input ih => exact node _ (by simpa [inputs] using ih)
  | join h algorithm spec left right ihl ihr => exact node _ (by simpa [inputs] using ⟨ihl, ihr⟩)

@[simp] theorem mem_preorder_self (p : Plan) : p ∈ p.preorder := by
  cases p <;> simp [preorder]

theorem mem_preorder_source {h : Header} {op : Source} :
    n ∈ (source h op).preorder ↔ n = .source h op := by
  simp [preorder]

theorem mem_preorder_transform {h : Header} {op : Transform} {input : Plan} :
    n ∈ (transform h op input).preorder ↔ n = .transform h op input ∨ n ∈ input.preorder := by
  simp [preorder]

theorem mem_preorder_join {h : Header} {algorithm : JoinAlgorithm} {spec : JoinSpec}
    {left right : Plan} :
    n ∈ (join h algorithm spec left right).preorder ↔
      n = .join h algorithm spec left right ∨ n ∈ left.preorder ∨ n ∈ right.preorder := by
  simp [preorder]

/-- The nodes of a node's subtree are nodes of the plan. -/
theorem preorder_subset (h : n ∈ p.preorder) : n.preorder ⊆ p.preorder := by
  induction p with
  | source h' op =>
      rw [mem_preorder_source.1 h]
      exact List.Subset.refl _
  | transform h' op input ih =>
      rcases mem_preorder_transform.1 h with rfl | hn
      · exact List.Subset.refl _
      · exact List.Subset.trans (ih hn) (List.subset_cons_self _ _)
  | join h' algorithm spec left right ihl ihr =>
      rcases mem_preorder_join.1 h with rfl | hn | hn
      · exact List.Subset.refl _
      · exact fun m hm => mem_preorder_join.2 (Or.inr (Or.inl (ihl hn hm)))
      · exact fun m hm => mem_preorder_join.2 (Or.inr (Or.inr (ihr hn hm)))

theorem mem_preorder_of_mem_inputs {i : Plan} (hi : i ∈ p.inputs) : i ∈ p.preorder := by
  cases p with
  | source h op => cases hi
  | transform h op input =>
      rw [List.mem_singleton.1 hi]
      exact mem_preorder_transform.2 (Or.inr (mem_preorder_self _))
  | join h algorithm spec left right =>
      rw [inputs, List.mem_cons, List.mem_singleton] at hi
      rcases hi with rfl | rfl
      · exact mem_preorder_join.2 (Or.inr (Or.inl (mem_preorder_self _)))
      · exact mem_preorder_join.2 (Or.inr (Or.inr (mem_preorder_self _)))

theorem sizeOf_le_of_mem_preorder (h : n ∈ p.preorder) : sizeOf n ≤ sizeOf p := by
  induction p with
  | source h' op => exact Nat.le_of_eq (congrArg sizeOf (mem_preorder_source.1 h))
  | transform h' op input ih =>
      rcases mem_preorder_transform.1 h with rfl | hn
      · exact Nat.le_refl _
      · exact Nat.le_trans (ih hn) (by simp)
  | join h' algorithm spec left right ihl ihr =>
      rcases mem_preorder_join.1 h with rfl | hn | hn
      · exact Nat.le_refl _
      · exact Nat.le_trans (ihl hn) (by simp +arith)
      · exact Nat.le_trans (ihr hn) (by simp)

/-- A node does not occur below itself. -/
theorem notMem_preorder_of_mem_inputs {i : Plan} (hi : i ∈ p.inputs) : p ∉ i.preorder := by
  intro hp
  have hlt : sizeOf i < sizeOf p := by
    cases p with
    | source h op => cases hi
    | transform h op input =>
        rw [List.mem_singleton.1 hi]
        simp +arith
    | join h algorithm spec left right =>
        rw [inputs, List.mem_cons, List.mem_singleton] at hi
        rcases hi with rfl | rfl
        · simp +arith
        · simp +arith
  exact Nat.not_le.2 hlt (sizeOf_le_of_mem_preorder hp)

theorem eq_screen_of_kind (hp : p.kind = .screen) :
    ∃ h input, p = .transform h .screen input := by
  cases p with
  | source h op => cases op <;> cases hp
  | transform h op input =>
      cases op with
      | screen => exact ⟨h, input, rfl⟩
      | _ => cases hp
  | join h algorithm spec left right => cases algorithm <;> cases hp

theorem eq_writer_of_kind (hp : p.kind = .writer) :
    ∃ h target input, p = .transform h (.writer target) input := by
  cases p with
  | source h op => cases op <;> cases hp
  | transform h op input =>
      cases op with
      | writer target => exact ⟨h, target, input, rfl⟩
      | _ => cases hp
  | join h algorithm spec left right => cases algorithm <;> cases hp

/-- Every node has the property. -/
def Everywhere (P : Plan → Prop) (p : Plan) : Prop := ∀ n ∈ p.preorder, P n

variable {P : Plan → Prop}

@[simp] theorem everywhere_source {h : Header} {op : Source} :
    Everywhere P (source h op) ↔ P (source h op) := by
  simp [Everywhere, preorder]

@[simp] theorem everywhere_transform {h : Header} {op : Transform} {input : Plan} :
    Everywhere P (transform h op input) ↔ P (transform h op input) ∧ Everywhere P input := by
  simp [Everywhere, preorder]

@[simp] theorem everywhere_join {h : Header} {algorithm : JoinAlgorithm} {spec : JoinSpec}
    {left right : Plan} :
    Everywhere P (join h algorithm spec left right) ↔
      P (join h algorithm spec left right) ∧ Everywhere P left ∧ Everywhere P right := by
  simp [Everywhere, preorder, or_imp, forall_and]

theorem Everywhere.self (h : Everywhere P p) : P p := h p (mem_preorder_self p)

theorem everywhere_iff_inputs : Everywhere P p ↔ P p ∧ ∀ i ∈ p.inputs, Everywhere P i := by
  cases p <;> simp [inputs]

end Plan

end QueryPlan
