import QueryPlan.Proofs.StarColumns.Rows

/-!
# What a plan with separated star columns means

Operators find fields by their places, so names play no part in what a plan computes, and a
projection that hands on its input's row does nothing. The skeleton of a plan leaves both
out. It has the operators with all their expressions and ordinals, and at each of them the
column types and what is known about the organisation of the output.

The walk on star columns puts projections in, leaves projections out, and makes nodes anew
over other inputs. None of this shows in the skeleton.
-/

namespace QueryPlan

/-- A plan without names and identities. -/
inductive Skeleton where
  | source (types : List DataType) (traits : Traits) (op : Source)
  | transform (types : List DataType) (traits : Traits) (op : Transform) (input : Skeleton)
  | join (types : List DataType) (traits : Traits) (algorithm : JoinAlgorithm) (spec : JoinSpec)
    (left right : Skeleton)

/-- The operator, whether it may repeat names or not. -/
def Transform.forgetDuplicates : Transform → Transform
  | .project exprs _ => .project exprs false
  | op => op

namespace Plan

/-- What is left of a plan without names and without the projections that hand on the row of
their input. -/
def skeleton : Plan → Skeleton
  | .source h op => .source h.schema.types h.traits op
  | .transform h op input =>
    if (transform h op input).isIdentityProjection then input.skeleton
    else .transform h.schema.types h.traits op.forgetDuplicates input.skeleton
  | .join h algorithm spec left right =>
    .join h.schema.types h.traits algorithm spec left.skeleton right.skeleton

variable {h : Header} {op : Transform} {input : Plan}

theorem skeleton_of_isIdentityProjection
    (hidentity : (transform h op input).isIdentityProjection = true) :
    (transform h op input).skeleton = input.skeleton := by
  rw [skeleton, if_pos hidentity]

/-- The identity projection of the same types does not show, whatever its names. -/
theorem skeleton_project_identity {allowDuplicates : Bool} {row : Schema}
    (htypes : input.schema.types = row.types) :
    (transform h (.project row.identity allowDuplicates) input).skeleton = input.skeleton := by
  apply skeleton_of_isIdentityProjection
  rw [isIdentityProjection_project, handsOn_iff]
  exact (Schema.identity_eq_of_types_eq htypes).symm

theorem isIdentityProjection_congr {h' : Header} {op' : Transform} {input' : Plan}
    (hop : op'.forgetDuplicates = op.forgetDuplicates)
    (hrow : input'.schema.types = input.schema.types) :
    (transform h' op' input').isIdentityProjection =
      (transform h op input).isIdentityProjection := by
  have hforget : ∀ (header : Header) (t : Transform) (i : Plan),
      (transform header t i).isIdentityProjection =
        (transform header t.forgetDuplicates i).isIdentityProjection := by
    intro header t i
    cases t <;> rfl
  rw [hforget, hforget h, hop]
  cases op.forgetDuplicates with
  | project exprs allowDuplicates =>
      rw [isIdentityProjection_project, isIdentityProjection_project, hrow]
  | _ => rfl

/-- Two nodes of one operator have one skeleton if their rows have the same types, their
traits are the same, and so it is with their inputs. -/
theorem skeleton_transform_congr {h' : Header} {op' : Transform} {input' : Plan}
    (hop : op'.forgetDuplicates = op.forgetDuplicates)
    (htypes : h'.schema.types = h.schema.types) (htraits : h'.traits = h.traits)
    (hinput : input'.skeleton = input.skeleton)
    (hrow : input'.schema.types = input.schema.types) :
    (transform h' op' input').skeleton = (transform h op input).skeleton := by
  rw [skeleton, skeleton, isIdentityProjection_congr hop hrow, hop, htypes, htraits, hinput]

end Plan

namespace StarColumn

variable {σ σ' : StarState} {s s' : NodeSupply} {p q : Plan} {h : Header}

theorem LeavesLeaf.skeleton_eq {op : Source} (hstep : LeavesLeaf σ s h op q σ' s') :
    q.skeleton = (Plan.source h op).skeleton := by
  cases hstep with
  | kept => rfl
  | prefixed => exact Plan.skeleton_project_identity rfl

theorem LeavesTransform.skeleton_eq {op : Transform} {input input' : Plan}
    (hstep : LeavesTransform σ s h op input input' q σ' s')
    (hfits : op.Fits input.schema h.schema) (hknown : (Plan.transform h op input).TraitsFit)
    (htypes : input'.schema.types = input.schema.types) (htraits : input'.traits = input.traits)
    (hinput : input'.skeleton = input.skeleton) :
    q.skeleton = (Plan.transform h op input).skeleton := by
  have hrow : q.schema.types = h.schema.types := hstep.types_eq hfits htypes
  have hq : q.traits = h.traits := hstep.traits_eq hknown htraits
  cases hstep with
  | writerKept | screenKept | kept => rfl
  | writerRebuilt | screenRebuilt | rebuilt =>
      exact Plan.skeleton_transform_congr rfl hrow hq hinput htypes
  | screenRestored =>
      have hshown : h.schema = input.schema := hfits
      have hrestored : input'.schema.types = h.schema.types := by
        rw [htypes, hshown]
      refine Plan.skeleton_transform_congr rfl rfl rfl ?_ (congrArg Schema.types hshown)
      rw [Plan.skeleton_project_identity hrestored, hinput]
  | projectDropped hidentity =>
      rw [Plan.skeleton_of_isIdentityProjection, hinput]
      rwa [Plan.isIdentityProjection_project, ← htypes]
  | projectRebuilt => exact Plan.skeleton_transform_congr rfl hrow hq hinput htypes

theorem LeavesJoin.skeleton_eq {algorithm : JoinAlgorithm} {spec : JoinSpec}
    {left right left' right' : Plan}
    (hstep : LeavesJoin s h algorithm spec left right left' right' q s')
    (htypes : q.schema.types = h.schema.types) (htraits : q.traits = h.traits)
    (hleft : left'.skeleton = left.skeleton) (hright : right'.skeleton = right.skeleton) :
    q.skeleton = (Plan.join h algorithm spec left right).skeleton := by
  cases hstep with
  | kept => rfl
  | rebuilt =>
      rw [Plan.skeleton, Plan.skeleton, hleft, hright]
      exact congrArg₂ (Skeleton.join · · _ _ _ _) htypes htraits

/-- The walk keeps the skeleton, the column types and the traits. -/
theorem Becomes.skeleton_eq (hwalk : Becomes σ s p q σ' s') (hp : p.WellFormed)
    (hknown : p.Everywhere Plan.TraitsFit) :
    q.skeleton = p.skeleton ∧ q.schema.types = p.schema.types ∧ q.traits = p.traits := by
  induction hwalk with
  | source hstep => exact ⟨hstep.skeleton_eq, hstep.types_eq, hstep.traits_eq⟩
  | transform _ hstep ih =>
      obtain ⟨hfits, hinput⟩ := Plan.wellFormed_transform.1 hp
      obtain ⟨hnode, hinputs⟩ := Plan.everywhere_transform.1 hknown
      obtain ⟨hskeleton, htypes, htraits⟩ := ih hinput hinputs
      exact ⟨hstep.skeleton_eq hfits hnode htypes htraits hskeleton,
        hstep.types_eq hfits htypes, hstep.traits_eq hnode htraits⟩
  | join _ _ hstep ihl ihr =>
      obtain ⟨⟨hfits, hany⟩, hleft, hright⟩ := Plan.wellFormed_join.1 hp
      obtain ⟨-, hlefts, hrights⟩ := Plan.everywhere_join.1 hknown
      obtain ⟨hlskeleton, hltypes, -⟩ := ihl hleft hlefts
      obtain ⟨hrskeleton, hrtypes, -⟩ := ihr hright hrights
      have htypes := hstep.types_eq hfits hltypes hrtypes
      have htraits := hstep.traits_eq hany
      exact ⟨hstep.skeleton_eq htypes htraits hlskeleton hrskeleton, htypes, htraits⟩

end StarColumn

/-- Telling the star columns apart changes nothing in what a constructed plan means: its
operators stay in their places with all that they refer to, and so do the column types and
the traits. -/
theorem Plan.skeleton_eq_of_run_separateStars {p q : Plan} {s s' : NodeSupply}
    (hp : p.Constructed s) (hrun : p.separateStars.run s = .ok (q, s')) :
    q.skeleton = p.skeleton ∧ q.schema.types = p.schema.types ∧ q.traits = p.traits := by
  obtain ⟨σ, hwith⟩ := StarColumn.exists_run_separateStarsWith hrun
  obtain ⟨hwalk, -⟩ := StarColumn.becomes_of_run_separateStarsWith hp hwith
  exact hwalk.skeleton_eq hp.wellFormed hp.traitsFit

theorem SwappedStars.skeleton_eq_of_run_separateStars_shown :
    ∃ q s', shown.separateStars.run ⟨5⟩ = .ok (q, s') ∧ q.skeleton = shown.skeleton ∧
      q.schema.types = shown.schema.types ∧ q.traits = shown.traits := by
  obtain ⟨q, s', hrun⟩ :=
    PlanM.exists_run_of_isOk (x := shown.separateStars) (s := ⟨5⟩) (by decide +kernel)
  exact ⟨q, s', hrun, Plan.skeleton_eq_of_run_separateStars constructed_shown hrun⟩

end QueryPlan
