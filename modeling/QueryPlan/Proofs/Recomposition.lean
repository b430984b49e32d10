import QueryPlan.Proofs.Plan.Recomposition
import QueryPlan.Proofs.Standard

/-!
# The passes put plans together again

Both passes do nothing else to a plan than take it apart and put it together again. The walk on
star columns covers leaves, restores the screen and puts operators over what has become of
their inputs. It also puts whole subplans back that it has gone through, below a writer or a
screen, and it makes projections that it then leaves out. The walk on join inputs comes to each
join a second time, once its inputs have been dealt with. Neither asks of the plan that its rows
fit its operators.
-/

namespace QueryPlan

open Plan (Recomposed Rederives)

namespace StarColumn

variable {σ σ' : StarState} {s s' s₁ s₂ : NodeSupply} {p q : Plan} {h : Header}

theorem LeavesLeaf.recomposed {op : Source} (hstep : LeavesLeaf σ s h op q σ' s') :
    Recomposed s (.source h op) q s' := by
  cases hstep with
  | kept => exact .refl _ _
  | prefixed =>
      refine .cover ?_
      rfl

theorem LeavesTransform.recomposed {op : Transform} {input input' : Plan}
    (hinput : Recomposed s input input' s₁)
    (hstep : LeavesTransform σ s₁ h op input input' q σ' s') :
    Recomposed s (.transform h op input) q s' := by
  cases hstep with
  | writerKept | screenKept | kept => exact .skip hinput.next_le
  | writerRebuilt | screenRebuilt | projectRebuilt =>
      refine hinput.transform ?_
      rfl
  | screenRestored =>
      refine .trans (hinput.transform ?_) (.cover ?_)
      · rfl
      · rfl
  | projectDropped => exact .trans .uncover (.trans hinput (.skip (Nat.le_succ _)))
  | rebuilt _ hderived => exact hinput.transform (Plan.derivedSchema_again hderived)

theorem LeavesJoin.recomposed {algorithm : JoinAlgorithm} {spec : JoinSpec}
    {left left' right right' : Plan} (hleft : Recomposed s left left' s₁)
    (hright : Recomposed s₁ right right' s₂)
    (hstep : LeavesJoin s₂ h algorithm spec left right left' right' q s') :
    Recomposed s (.join h algorithm spec left right) q s' := by
  cases hstep with
  | kept => exact .skip (Nat.le_trans hleft.next_le hright.next_le)
  | rebuilt => exact .join hleft hright ⟨rfl, rfl⟩

theorem Becomes.recomposed (hwalk : Becomes σ s p q σ' s') : Recomposed s p q s' := by
  induction hwalk with
  | source hstep => exact hstep.recomposed
  | transform _ hstep ih => exact hstep.recomposed ih
  | join _ _ hstep ihl ihr => exact hstep.recomposed ihl ihr

theorem recomposed_of_run_separateStars {R : Register} (hp : p ∈ R.nodes)
    (hrun : p.separateStars.run R.supply = .ok (q, s')) : Recomposed R.supply p q s' := by
  obtain ⟨σ', hwalk⟩ := exists_run_separateStarsWith hrun
  exact (becomes_of_runs_walk hp hwalk).1.recomposed

end StarColumn

namespace Plan

open PlanM

variable {s s' s₁ s₂ : NodeSupply} {p q input input' : Plan} {h : Header}

theorem recomposed_of_run_keepOver_transform {op : Transform}
    (hinput : Recomposed s input input' s₁)
    (hrun : ((transform h op input).keepOver [input']).run s₁ = .ok (q, s')) :
    Recomposed s (.transform h op input) q s' := by
  rcases run_keepOver_eq_ok_iff.1 hrun with ⟨-, rfl, rfl⟩ | ⟨-, hbuild⟩
  · exact .skip hinput.next_le
  · obtain ⟨schema, hderived, rfl, rfl⟩ := run_withInputs_transform_eq_ok_iff.1 hbuild
    exact hinput.transform (derivedSchema_again hderived)

theorem recomposed_of_run_keepOver_join {algorithm : JoinAlgorithm} {spec : JoinSpec}
    {left left' right right' : Plan} (hleft : Recomposed s left left' s₁)
    (hright : Recomposed s₁ right right' s₂)
    (hrun : ((join h algorithm spec left right).keepOver [left', right']).run s₂ =
      .ok (q, s')) : Recomposed s (.join h algorithm spec left right) q s' := by
  rcases run_keepOver_eq_ok_iff.1 hrun with ⟨-, rfl, rfl⟩ | ⟨-, hbuild⟩
  · exact .skip (Nat.le_trans hleft.next_le hright.next_le)
  · obtain ⟨rfl, rfl⟩ := run_withInputs_join_eq_ok_iff.1 hbuild
    exact .join hleft hright ⟨rfl, rfl⟩

theorem recomposed_of_kept_or_project
    (hcases : (q = input ∧ s' = s) ∨
      ∃ names, (input.project input.schema.identity names).run s = .ok (q, s')) :
    Recomposed s input q s' := by
  rcases hcases with ⟨rfl, rfl⟩ | ⟨names, hproject⟩
  · exact .refl _ _
  · obtain ⟨-, -, -, rfl, rfl⟩ := run_projectWith_eq_ok_iff.1 hproject
    refine .cover ?_
    rfl

theorem recomposed_of_run_alignJoin (hrun : p.alignJoin.run s = .ok (q, s')) :
    Recomposed s p q s' := by
  cases p with
  | source h op | transform h op input =>
      obtain ⟨rfl, rfl⟩ := run_pure_eq_ok_iff.1 hrun
      exact .refl _ _
  | join h algorithm spec left right =>
      rw [alignJoin_join, run_bind_eq_ok_iff] at hrun
      obtain ⟨left', s₁, hlrun, hrun⟩ := hrun
      obtain ⟨right', s₂, hrrun, hbuild⟩ := run_bind_eq_ok_iff.1 hrun
      exact recomposed_of_run_keepOver_join
        (recomposed_of_kept_or_project (run_alignedInput_cases hlrun))
        (recomposed_of_kept_or_project (run_alignedInput_right_cases hrrun)) hbuild

theorem recomposed_of_run_alignJoins (hrun : p.alignJoins.run s = .ok (q, s')) :
    Recomposed s p q s' := by
  induction p generalizing s q s' with
  | source h op =>
      obtain ⟨rfl, rfl⟩ := run_pure_eq_ok_iff.1 hrun
      exact .refl _ _
  | transform h op input ih =>
      rw [alignJoins_transform, run_bind_eq_ok_iff] at hrun
      obtain ⟨input', s₁, hinput, hrun⟩ := hrun
      obtain ⟨p', s₂, hkeep, halign⟩ := run_bind_eq_ok_iff.1 hrun
      exact .trans (recomposed_of_run_keepOver_transform (ih hinput) hkeep)
        (recomposed_of_run_alignJoin halign)
  | join h algorithm spec left right ihl ihr =>
      rw [alignJoins_join, run_bind_eq_ok_iff] at hrun
      obtain ⟨left', s₁, hlrun, hrun⟩ := hrun
      obtain ⟨right', s₂, hrrun, hrun⟩ := run_bind_eq_ok_iff.1 hrun
      obtain ⟨p', s₃, hkeep, halign⟩ := run_bind_eq_ok_iff.1 hrun
      exact .trans (recomposed_of_run_keepOver_join (ihl hlrun) (ihr hrrun) hkeep)
        (recomposed_of_run_alignJoin halign)

end Plan

namespace Pass

variable {settings : Settings} {passes : List Pass} {R : Register} {p q : Plan}
  {s' : NodeSupply}

/-- The pass puts plans together again. -/
def Recomposes (settings : Settings) (pass : Pass) : Prop :=
  ∀ (R : Register) (p q : Plan) (s' : NodeSupply), p ∈ R.nodes →
    (pass.run settings p).run R.supply = .ok (q, s') → Recomposed R.supply p q s'

/-- Passes that put plans together again do so one after the other. -/
theorem recomposed_of_outcome_runAll (hpasses : ∀ pass ∈ passes, Recomposes settings pass)
    (hp : p ∈ R.nodes) (hrun : (runAll settings passes p R.supply).outcome = .ok (q, s')) :
    Recomposed R.supply p q s' := by
  induction passes generalizing R p with
  | nil =>
      cases hrun
      exact .refl _ _
  | cons pass rest ih =>
      obtain ⟨hpass, hrest⟩ := List.forall_mem_cons.1 hpasses
      rw [outcome_runAll_cons] at hrun
      by_cases hon : pass.enabled settings = true
      · rw [if_pos hon] at hrun
        cases hfirst : (pass.run settings p).run R.supply with
        | error e =>
            rw [hfirst] at hrun
            cases hrun
        | ok result =>
            obtain ⟨p', s₁⟩ := result
            rw [hfirst] at hrun
            have hstep := hpass R p p' s₁ hp hfirst
            obtain ⟨R₁, -, rfl, hmem⟩ := hstep.exists_register hp
            exact .trans hstep (ih hrest hmem hrun)
      · rw [if_neg hon] at hrun
        exact ih hrest hp hrun

theorem recomposes_of_mem_standard : ∀ pass ∈ standard, Recomposes settings pass := by
  intro pass hpass
  rcases List.mem_cons.1 hpass with rfl | hpass
  · exact fun R p q s' hp hrun => StarColumn.recomposed_of_run_separateStars hp hrun
  · rw [List.mem_singleton.1 hpass]
    exact fun R p q s' _ hrun => Plan.recomposed_of_run_alignJoins hrun

end Pass

end QueryPlan
