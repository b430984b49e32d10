import QueryPlan.Proofs.Plan.Preorder

/-!
# The leaves of a plan

The leaves are listed from left to right, in the order in which a walk comes to them. A leaf
may be looked at together with what stands before it in the plan, that is, the nodes a walk
has entered by then, or together with the node right above it.
-/

namespace QueryPlan

namespace Plan

/-- The leaves, a shared leaf once for each place it has. -/
def leaves (p : Plan) : List Plan := p.preorder.filter isLeaf

/-- The leaves among the nodes of a list, each with the nodes before it. Before the whole
list stands `before`. -/
def sitesFrom (before : List Plan) : List Plan → List (List Plan × Plan)
  | [] => []
  | n :: rest =>
    if n.isLeaf then (before, n) :: sitesFrom (before ++ [n]) rest
    else sitesFrom (before ++ [n]) rest

/-- The leaves, each with the nodes that come before it in preorder. -/
def leafSites (p : Plan) : List (List Plan × Plan) := sitesFrom [] p.preorder

/-- The leaves, each with the node above it. Above the plan itself stands `parent`. -/
def leafParents (parent : Option Plan) : Plan → List (Option Plan × Plan)
  | .source h op => [(parent, .source h op)]
  | .transform h op input => input.leafParents (some (.transform h op input))
  | .join h algorithm spec left right =>
    left.leafParents (some (.join h algorithm spec left right)) ++
      right.leafParents (some (.join h algorithm spec left right))

variable {p : Plan} {h : Header}

@[simp] theorem leaves_source {op : Source} : (source h op).leaves = [.source h op] := rfl

@[simp] theorem leaves_transform {op : Transform} {input : Plan} :
    (transform h op input).leaves = input.leaves := by
  simp [leaves, preorder, isLeaf, inputs]

@[simp] theorem leaves_join {algorithm : JoinAlgorithm} {spec : JoinSpec} {left right : Plan} :
    (join h algorithm spec left right).leaves = left.leaves ++ right.leaves := by
  simp [leaves, preorder, isLeaf, inputs]

theorem map_snd_leafParents (parent : Option Plan) (p : Plan) :
    (p.leafParents parent).map Prod.snd = p.leaves := by
  induction p generalizing parent with
  | source h op => rfl
  | transform h op input ih => rw [leafParents, ih, leaves_transform]
  | join h algorithm spec left right ihl ihr =>
      rw [leafParents, List.map_append, ihl, ihr, leaves_join]

theorem mem_preorder_of_mem_leafParents {parent : Option Plan} {w leaf : Plan}
    (hmem : (some w, leaf) ∈ p.leafParents parent) : parent = some w ∨ w ∈ p.preorder := by
  induction p generalizing parent with
  | source h op =>
      obtain ⟨rfl, -⟩ := Prod.mk.inj (List.mem_singleton.1 hmem)
      exact Or.inl rfl
  | transform h op input ih =>
      rcases ih hmem with heq | hw
      · cases heq
        exact Or.inr (mem_preorder_self _)
      · exact Or.inr (mem_preorder_transform.2 (Or.inr hw))
  | join h algorithm spec left right ihl ihr =>
      have hside : ∀ {side : Plan}, some (join h algorithm spec left right) = some w ∨
          w ∈ side.preorder → w = .join h algorithm spec left right ∨ w ∈ side.preorder :=
        fun hw => hw.imp_left fun heq => (Option.some.inj heq).symm
      refine Or.inr (mem_preorder_join.2 ?_)
      rcases List.mem_append.1 hmem with hmem | hmem
      · exact (hside (ihl hmem)).imp_right Or.inl
      · exact (hside (ihr hmem)).imp_right Or.inr

theorem map_snd_sitesFrom (before nodes : List Plan) :
    (sitesFrom before nodes).map Prod.snd = nodes.filter isLeaf := by
  induction nodes generalizing before with
  | nil => rfl
  | cons n rest ih =>
      cases hleaf : n.isLeaf with
      | true =>
          rw [sitesFrom, if_pos hleaf, List.map_cons, ih, List.filter_cons_of_pos hleaf]
      | false =>
          rw [sitesFrom, hleaf, if_neg Bool.false_ne_true, ih,
            List.filter_cons_of_neg (by simp [hleaf])]

theorem map_snd_leafSites (p : Plan) : p.leafSites.map Prod.snd = p.leaves :=
  map_snd_sitesFrom [] p.preorder

end Plan

end QueryPlan
