import QueryPlan.Proofs.Plan.Comparison
import QueryPlan.Proofs.Plan.Recomposition

/-!
# Plans made again

Every node of a plan is made again over its inputs, from the leaves to the root. This succeeds
if each node carries what its operator derives from its inputs. The new inputs show the rows of
the old ones, so the row of the node is derived once more, and the new node carries what the
old one carries. The nodes are all new, and a subplan that was shared is made once for each
place it has.
-/

namespace QueryPlan

namespace Plan

/-- The second plan is the first one with all nodes made again. -/
structure Rebuilt (s : NodeSupply) (p q : Plan) (s' : NodeSupply) : Prop where
  alike : Alike q p
  next_le : s.next ≤ s'.next
  made : ∀ n ∈ q.preorder, MadeBetween s s' n
  unshared : q.Unshared

variable {s s₁ s₂ : NodeSupply} {h h' : Header} {input input' : Plan}

theorem rebuilt_source {op : Source} (s : NodeSupply) (h : Header) :
    Rebuilt s (.source h op) (.source (s.header h.schema h.traits) op) s.rest where
  alike := .source rfl rfl
  next_le := Nat.le_succ _
  made n hn := by
    rw [mem_preorder_source.1 hn]
    exact ⟨Nat.le_refl _, Nat.lt_succ_self _⟩
  unshared := by simp [Unshared, preorder]

theorem Rebuilt.transform {op : Transform} (hinput : Rebuilt s input input' s₁) :
    Rebuilt s (.transform h op input) (.transform (s₁.header h.schema h.traits) op input')
      s₁.rest where
  alike := .transform rfl rfl BEq.rfl hinput.alike
  next_le := Nat.le_succ_of_le hinput.next_le
  made n hn := by
    rcases mem_preorder_transform.1 hn with rfl | hn
    · exact ⟨hinput.next_le, Nat.lt_succ_self _⟩
    · exact (hinput.made n hn).mono (Nat.le_refl _) (Nat.le_succ _)
  unshared := unshared_new_transform hinput.unshared fun n hn => (hinput.made n hn).2

theorem Rebuilt.join {algorithm : JoinAlgorithm} {spec : JoinSpec}
    {left left' right right' : Plan} (hleft : Rebuilt s left left' s₁)
    (hright : Rebuilt s₁ right right' s₂) :
    Rebuilt s (.join h algorithm spec left right)
      (.join (s₂.header h.schema h.traits) algorithm spec left' right') s₂.rest where
  alike := .join rfl rfl BEq.rfl hleft.alike hright.alike
  next_le := Nat.le_succ_of_le (Nat.le_trans hleft.next_le hright.next_le)
  made n hn := by
    rcases mem_preorder_join.1 hn with rfl | hn | hn
    · exact ⟨Nat.le_trans hleft.next_le hright.next_le, Nat.lt_succ_self _⟩
    · exact (hleft.made n hn).mono (Nat.le_refl _) (Nat.le_succ_of_le hright.next_le)
    · exact (hright.made n hn).mono hleft.next_le (Nat.le_succ _)
  unshared := unshared_new_join hleft.unshared hright.unshared
    (fun n hn => Nat.lt_of_lt_of_le (hleft.made n hn).2 hright.next_le)
    (fun n hn => (hright.made n hn).2)
    fun n hn m hm => ne_of_index_lt_of_le (hleft.made n hn).2 (hright.made m hm).1

theorem rebuild_transform {op : Transform} : (transform h op input).rebuild =
    input.rebuild >>= fun input' => (transform h op input).withInputs [input'] := rfl

theorem rebuild_join {algorithm : JoinAlgorithm} {spec : JoinSpec} {left right : Plan} :
    (join h algorithm spec left right).rebuild = left.rebuild >>= fun left' =>
      right.rebuild >>= fun right' =>
        (join h algorithm spec left right).withInputs [left', right'] := rfl

/-- A plan whose nodes carry what their operators derive can be made again at any time. -/
theorem exists_run_rebuild {p : Plan} (hp : p.Everywhere Rederives) (s : NodeSupply) :
    ∃ q s', p.rebuild.run s = .ok (q, s') ∧ Rebuilt s p q s' := by
  induction p generalizing s with
  | source h op => exact ⟨_, _, rfl, rebuilt_source s h⟩
  | transform h op input ih =>
      obtain ⟨hnode, hinput⟩ := everywhere_transform.1 hp
      obtain ⟨input', s₁, hrun, hrebuilt⟩ := ih hinput s
      have hderived : derivedSchema h.schema op input'.schema = .ok h.schema := by
        rw [hrebuilt.alike.schema_eq]
        exact hnode
      refine ⟨_, _, ?_, hrebuilt.transform⟩
      rw [rebuild_transform, PlanM.run_bind_eq_ok_iff]
      exact ⟨input', s₁, hrun,
        run_withInputs_transform_eq_ok_iff.2 ⟨h.schema, hderived, rfl, rfl⟩⟩
  | join h algorithm spec left right ihl ihr =>
      obtain ⟨⟨hrow, htraits⟩, hleft, hright⟩ := everywhere_join.1 hp
      obtain ⟨left', s₁, hlrun, hl⟩ := ihl hleft s
      obtain ⟨right', s₂, hrrun, hr⟩ := ihr hright s₁
      have hrow' : Schema.join left'.schema right'.schema spec.joinType = h.schema := by
        rw [hl.alike.schema_eq, hr.alike.schema_eq, hrow]
      refine ⟨_, _, ?_, hl.join hr⟩
      rw [rebuild_join, PlanM.run_bind_eq_ok_iff]
      refine ⟨left', s₁, hlrun, PlanM.run_bind_eq_ok_iff.2 ⟨right', s₂, hrrun, ?_⟩⟩
      rw [run_withInputs_join_eq_ok_iff, hrow', htraits]
      exact ⟨rfl, rfl⟩

end Plan

end QueryPlan
