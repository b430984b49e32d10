import QueryPlan.Proofs.StarColumns.TableIds
import QueryPlan.Proofs.StarColumns.Walk

/-!
# What the walk on star columns decides

The flag of the walk is set once an ambiguous node has been entered or an ambiguous leaf has
been left, so when the walk comes to a leaf, the flag says whether an ambiguous node stands
before it in the plan. The counter of the walk is the number of leaves prefixed so far. Both
are functions of the part of the plan that the walk has seen, whatever has become of it.
-/

namespace QueryPlan

namespace StarState

open StarColumn

variable {σ : StarState}

@[simp] theorem prefixedLeaves_entering (σ : StarState) (p : Plan) :
    (σ.entering p).prefixedLeaves = σ.prefixedLeaves := rfl

theorem prefixNeeded_entering {p : Plan} (hp : p.isLeaf = false) :
    (σ.entering p).prefixNeeded = (σ.prefixNeeded || isAmbiguous p) := by
  have hshows : StarColumn.showsNeed p = isAmbiguous p := by
    cases p with
    | source h op => cases hp
    | transform h op input => cases op <;> rfl
    | join h algorithm spec left right => rfl
  rw [entering, hshows]

/-- The table ids that a walk with these decisions gives to the leaves of a plan. -/
def nextIds (σ : StarState) (p : Plan) : List (Option Nat) :=
  numberFrom σ.prefixedLeaves (leafMarks σ.prefixNeeded p.preorder)

theorem length_nextIds (σ : StarState) (p : Plan) : (σ.nextIds p).length = p.leaves.length := by
  rw [nextIds, length_numberFrom, length_leafMarks]
  rfl

theorem tableIds_eq_nextIds (p : Plan) : tableIds p = ({} : StarState).nextIds p := by
  rw [tableIds, map_needsPrefix_leafSites, nextIds]

theorem nextIds_transform (σ : StarState) (h : Header) (op : Transform) (input : Plan) :
    σ.nextIds (.transform h op input) = (σ.entering (.transform h op input)).nextIds input := by
  rw [nextIds, nextIds, prefixNeeded_entering rfl, prefixedLeaves_entering]
  rfl

end StarState

namespace StarColumn

variable {σ σ' : StarState} {s s' : NodeSupply} {p q : Plan} {h : Header}

section Supply

theorem LeavesLeaf.next_le {op : Source} (hstep : LeavesLeaf σ s h op q σ' s') :
    s.next ≤ s'.next := by
  cases hstep <;> simp

theorem LeavesTransform.next_le {op : Transform} {input input' : Plan}
    (hstep : LeavesTransform σ s h op input input' q σ' s') : s.next ≤ s'.next := by
  cases hstep <;> simp [Nat.le_succ_of_le]

theorem LeavesJoin.next_le {algorithm : JoinAlgorithm} {spec : JoinSpec}
    {left right left' right' : Plan}
    (hstep : LeavesJoin s h algorithm spec left right left' right' q s') : s.next ≤ s'.next := by
  cases hstep <;> simp

/-- Identities are only taken. -/
theorem Becomes.next_le (hwalk : Becomes σ s p q σ' s') : s.next ≤ s'.next := by
  induction hwalk with
  | source hstep => exact hstep.next_le
  | transform _ hstep ih => exact Nat.le_trans ih hstep.next_le
  | join _ _ hstep ihl ihr => exact Nat.le_trans ihl (Nat.le_trans ihr hstep.next_le)

theorem LeavesTransform.mem_preorder {op : Transform} {input input' n : Plan}
    (hstep : LeavesTransform σ s h op input input' q σ' s') (hn : n ∈ q.preorder) :
    n ∈ (Plan.transform h op input).preorder ∨ n ∈ input'.preorder ∨ s.next ≤ n.id.index := by
  have hnew : ∀ {schema : Schema} {traits : Traits} {op' : Transform} {i : Plan},
      n ∈ (Plan.transform (s.header schema traits) op' i).preorder →
        s.next ≤ n.id.index ∨ n ∈ i.preorder := by
    intro schema traits op' i hmem
    rcases Plan.mem_preorder_transform.1 hmem with rfl | hmem
    · exact Or.inl (Nat.le_refl _)
    · exact Or.inr hmem
  cases hstep with
  | writerKept | screenKept | kept => exact Or.inl hn
  | projectDropped => exact Or.inr (Or.inl hn)
  | writerRebuilt | screenRebuilt | projectRebuilt | rebuilt =>
      exact Or.inr (hnew hn).symm
  | screenRestored =>
      rcases Plan.mem_preorder_transform.1 hn with rfl | hn
      · exact Or.inr (Or.inr (Nat.le_succ _))
      · exact Or.inr (hnew hn).symm

/-- Every node of what a plan becomes was in the plan or is new. -/
theorem Becomes.mem_preorder (hwalk : Becomes σ s p q σ' s') {n : Plan} (hn : n ∈ q.preorder) :
    n ∈ p.preorder ∨ s.next ≤ n.id.index := by
  induction hwalk with
  | source hstep =>
      cases hstep with
      | kept => exact Or.inl hn
      | prefixed =>
          rcases Plan.mem_preorder_transform.1 hn with rfl | hn
          · exact Or.inr (Nat.le_refl _)
          · exact Or.inl hn
  | transform hinput hstep ih =>
      rcases hstep.mem_preorder hn with hn | hn | hnew
      · exact Or.inl hn
      · rcases ih hn with hn | hnew
        · exact Or.inl (Plan.mem_preorder_transform.2 (Or.inr hn))
        · exact Or.inr hnew
      · exact Or.inr (Nat.le_trans hinput.next_le hnew)
  | join hleft hright hstep ihl ihr =>
      cases hstep with
      | kept => exact Or.inl hn
      | rebuilt =>
          rcases Plan.mem_preorder_join.1 hn with rfl | hn | hn
          · exact Or.inr (Nat.le_trans hleft.next_le hright.next_le)
          · rcases ihl hn with hn | hnew
            · exact Or.inl (Plan.mem_preorder_join.2 (Or.inr (Or.inl hn)))
            · exact Or.inr hnew
          · rcases ihr hn with hn | hnew
            · exact Or.inl (Plan.mem_preorder_join.2 (Or.inr (Or.inr hn)))
            · exact Or.inr (Nat.le_trans hleft.next_le hnew)

/-- The leaves stay the very nodes they were. -/
theorem Becomes.leaves_eq (hwalk : Becomes σ s p q σ' s') : q.leaves = p.leaves := by
  induction hwalk with
  | source hstep =>
      cases hstep with
      | kept => rfl
      | prefixed => rw [prefixedLeaf, Plan.leaves_transform]
  | transform _ hstep ih =>
      rw [Plan.leaves_transform]
      cases hstep with
      | writerKept | screenKept | kept => rw [Plan.leaves_transform]
      | projectDropped => exact ih
      | writerRebuilt | screenRebuilt | screenRestored | projectRebuilt | rebuilt =>
          simp only [Plan.leaves_transform]
          exact ih
  | join _ _ hstep ihl ihr =>
      cases hstep with
      | kept => rfl
      | rebuilt => rw [Plan.leaves_join, Plan.leaves_join, ihl, ihr]

end Supply

section Decisions

theorem LeavesTransform.decisions_eq {op : Transform} {input input' : Plan}
    (hstep : LeavesTransform σ s h op input input' q σ' s') :
    σ'.prefixNeeded = σ.prefixNeeded ∧ σ'.prefixedLeaves = σ.prefixedLeaves := by
  cases hstep <;> exact ⟨rfl, rfl⟩

theorem leafMarks_of_kept {seen : Bool} {op : Source}
    (hrow : seen = true → inRow h.schema = false) :
    leafMarks seen [.source h op] = [false] := by
  have hmark : (inRow h.schema && seen) = false := by
    cases seen with
    | true => rw [hrow rfl, Bool.false_and]
    | false => rw [Bool.and_false]
  exact congrArg ([·]) hmark

theorem leafMarks_of_prefixed {seen : Bool} {op : Source} (hseen : seen = true)
    (hrow : inRow h.schema = true) : leafMarks seen [.source h op] = [true] := by
  have hmark : (inRow h.schema && seen) = true := by rw [hseen, hrow, Bool.true_and]
  exact congrArg ([·]) hmark

theorem LeavesLeaf.decisions_eq {op : Source} (hstep : LeavesLeaf σ s h op q σ' s') :
    σ'.prefixNeeded = (σ.prefixNeeded || isAmbiguous (.source h op)) ∧
      σ'.prefixedLeaves = σ.prefixedLeaves +
        (leafMarks σ.prefixNeeded [.source h op]).count true := by
  cases hstep with
  | kept hrow =>
      rw [leafMarks_of_kept hrow]
      exact ⟨rfl, rfl⟩
  | prefixed hneeded hrow =>
      rw [leafMarks_of_prefixed hneeded hrow]
      exact ⟨by rw [hneeded, Bool.true_or], rfl⟩

theorem leafMarks_transform (seen : Bool) (h : Header) (op : Transform) (input : Plan) :
    leafMarks seen (Plan.transform h op input).preorder =
      leafMarks (seen || isAmbiguous (.transform h op input)) input.preorder := rfl

theorem leafMarks_join (seen : Bool) (h : Header) (algorithm : JoinAlgorithm) (spec : JoinSpec)
    (left right : Plan) :
    leafMarks seen (Plan.join h algorithm spec left right).preorder =
      leafMarks (seen || isAmbiguous (.join h algorithm spec left right)) left.preorder ++
        leafMarks ((seen || isAmbiguous (.join h algorithm spec left right)) ||
          left.preorder.any isAmbiguous) right.preorder :=
  leafMarks_append _ _ _

/-- What has been decided after the walk over a plan: the flag is set if it was set or the
plan has an ambiguous node, and the leaves that need a prefix have been counted. -/
theorem Becomes.decisions_eq (hwalk : Becomes σ s p q σ' s') :
    σ'.prefixNeeded = (σ.prefixNeeded || p.preorder.any isAmbiguous) ∧
      σ'.prefixedLeaves = σ.prefixedLeaves +
        (leafMarks σ.prefixNeeded p.preorder).count true := by
  induction hwalk with
  | source hstep =>
      obtain ⟨hneeded, hleaves⟩ := hstep.decisions_eq
      refine ⟨?_, hleaves⟩
      rw [hneeded, Plan.preorder, List.any_cons, List.any_nil, Bool.or_false]
  | @transform _ _ _ _ _ _ h op input _ _ _ hstep ih =>
      obtain ⟨hneeded, hleaves⟩ := ih
      rw [hstep.decisions_eq.1, hstep.decisions_eq.2, hneeded, hleaves,
        StarState.prefixNeeded_entering rfl, StarState.prefixedLeaves_entering,
        leafMarks_transform, Plan.preorder, List.any_cons, Bool.or_assoc]
      exact ⟨rfl, rfl⟩
  | join _ _ hstep ihl ihr =>
      obtain ⟨hlneeded, hlleaves⟩ := ihl
      obtain ⟨hrneeded, hrleaves⟩ := ihr
      rw [hrneeded, hrleaves, hlneeded, hlleaves, StarState.prefixNeeded_entering rfl,
        StarState.prefixedLeaves_entering, leafMarks_join, Plan.preorder, List.any_cons,
        List.any_append, List.count_append]
      exact ⟨by simp only [Bool.or_assoc], by rw [Nat.add_assoc]⟩

/-- The walk keeps this: as long as the flag is not set, no leaf has been prefixed. -/
theorem Becomes.prefixedLeaves_eq_zero (hwalk : Becomes σ s p q σ' s')
    (hσ : σ.prefixNeeded = false → σ.prefixedLeaves = 0) (hneeded : σ'.prefixNeeded = false) :
    σ'.prefixedLeaves = 0 := by
  obtain ⟨hflag, hcount⟩ := hwalk.decisions_eq
  obtain ⟨hbefore, hnone⟩ := Bool.or_eq_false_iff.1 (hflag.symm.trans hneeded)
  rw [hcount, hσ hbefore, hbefore, List.count_eq_zero.2 (notMem_leafMarks hnone)]

/-- The decisions that count for the leaves to come, once the walk has the plan behind it. -/
def past (σ : StarState) (p : Plan) : StarState :=
  { σ with
    prefixNeeded := σ.prefixNeeded || p.preorder.any isAmbiguous
    prefixedLeaves := σ.prefixedLeaves + (leafMarks σ.prefixNeeded p.preorder).count true }

theorem nextIds_join (σ : StarState) (h : Header) (algorithm : JoinAlgorithm) (spec : JoinSpec)
    (left right : Plan) :
    σ.nextIds (.join h algorithm spec left right) =
      (σ.entering (.join h algorithm spec left right)).nextIds left ++
        (past (σ.entering (.join h algorithm spec left right)) left).nextIds right := by
  rw [StarState.nextIds, StarState.nextIds, StarState.nextIds, leafMarks_join, numberFrom_append,
    past, StarState.prefixNeeded_entering rfl, StarState.prefixedLeaves_entering]

/-- A walk leaves to the plans after it the table ids that its plan leaves to them. -/
theorem Becomes.nextIds_eq (hwalk : Becomes σ s p q σ' s') (r : Plan) :
    σ'.nextIds r = (past σ p).nextIds r := by
  obtain ⟨hflag, hcount⟩ := hwalk.decisions_eq
  rw [StarState.nextIds, StarState.nextIds, hflag, hcount, past]

/-- The table ids of a join are those of its left leaves and then those that the walk over the
left input leaves to the right ones. -/
theorem Becomes.nextIds_join {σ₁ : StarState} {s₁ : NodeSupply} {algorithm : JoinAlgorithm}
    {spec : JoinSpec} {left left' right : Plan}
    (hleft : Becomes (σ.entering (.join h algorithm spec left right)) s left left' σ₁ s₁) :
    σ.nextIds (.join h algorithm spec left right) =
      (σ.entering (.join h algorithm spec left right)).nextIds left ++ σ₁.nextIds right := by
  rw [StarColumn.nextIds_join, hleft.nextIds_eq]

/-- After a walk without the flag set or without a prefixed leaf there are no table ids. -/
theorem Becomes.nextIds_eq_replicate (hwalk : Becomes σ s p q σ' s')
    (hnothing : σ'.prefixNeeded = false ∨ σ'.prefixedLeaves = 0) :
    σ.nextIds p = List.replicate p.leaves.length none := by
  obtain ⟨hflag, hcount⟩ := hwalk.decisions_eq
  have hmarks : true ∉ leafMarks σ.prefixNeeded p.preorder := by
    rcases hnothing with hneeded | hzero
    · obtain ⟨hbefore, hnone⟩ := Bool.or_eq_false_iff.1 (hflag.symm.trans hneeded)
      rw [hbefore]
      exact notMem_leafMarks hnone
    · exact List.count_eq_zero.1 (Nat.eq_zero_of_add_eq_zero_left (hcount.symm.trans hzero))
  rw [StarState.nextIds, numberFrom_of_notMem hmarks, length_leafMarks]
  rfl

end Decisions

end StarColumn

end QueryPlan
