import Mathlib.Data.List.Forall2
import QueryPlan.Proofs.Standard
import QueryPlan.Proofs.StarColumns.Meaning

/-!
# What all passes leave as it is

The walk on join inputs puts projections below joins which hand on the row of their input, and
the skeleton of a plan does without these. So it is kept by both walks and by a run of the
standard passes, whatever the settings are, and the resulting plan is well-formed again.

The joins of a plan are those of its skeleton. A plan of the same skeleton therefore has the same
joins in the same order.
-/

namespace QueryPlan

namespace Plan

variable {names : List String} {input p q r : Plan}

theorem Renamed.skeleton_eq (h : Renamed names input q) : q.skeleton = input.skeleton := by
  cases h with
  | kept => rfl
  | renamed => exact skeleton_project_identity rfl

/-- The projections that align joins do not show in the skeleton. -/
theorem AlignedFrom.skeleton_eq (h : AlignedFrom p q) : q.skeleton = p.skeleton := by
  induction h with
  | source => rfl
  | transform hinput hrow htraits ih =>
      exact skeleton_transform_congr rfl (congrArg Schema.types hrow) htraits ih
        (congrArg Schema.types hinput.schema_eq)
  | join _ _ hlrenamed hrrenamed hrow htraits ihl ihr =>
      rw [skeleton, skeleton, hlrenamed.skeleton_eq, hrrenamed.skeleton_eq, ihl, ihr, hrow, htraits]

/-- The second plan is well-formed and has the skeleton of the first one. -/
structure KeepsSkeleton (p q : Plan) : Prop where
  wellFormed : q.WellFormed
  skeleton_eq : q.skeleton = p.skeleton

theorem KeepsSkeleton.trans (h : KeepsSkeleton p q) (h' : KeepsSkeleton q r) :
    KeepsSkeleton p r :=
  ⟨h'.wellFormed, h'.skeleton_eq.trans h.skeleton_eq⟩

variable {s s' : NodeSupply}

theorem keepsSkeleton_of_run_separateStars (hp : p.Constructed s)
    (hrun : p.separateStars.run s = .ok (q, s')) :
    KeepsSkeleton p q ∧ ∃ R : Register, R.supply = s' ∧ q ∈ R.nodes := by
  obtain ⟨σ, hwith⟩ := StarColumn.exists_run_separateStarsWith hrun
  obtain ⟨hwalk, hregister⟩ := StarColumn.becomes_of_run_separateStarsWith hp hwith
  exact ⟨⟨(hwalk.wellFormed hp.wellFormed).1, (hwalk.skeleton_eq hp.wellFormed hp.traitsFit).1⟩,
    hregister⟩

theorem keepsSkeleton_of_run_alignJoins {R : Register} (hp : p ∈ R.nodes) (hfits : p.WellFormed)
    (hrun : p.alignJoins.run R.supply = .ok (q, s')) : KeepsSkeleton p q := by
  obtain ⟨q', R', hrun', -, -, haligned⟩ := yields_alignJoins hp hfits
  rw [hrun] at hrun'
  cases hrun'
  exact ⟨(haligned.wellFormed hfits).1, haligned.skeleton_eq⟩

end Plan

namespace Pass

variable {settings : Settings} {p q : Plan} {s s' : NodeSupply}

open Plan (KeepsSkeleton)

theorem keepsSkeleton_of_outcome_runAll_joinNames {R : Register} (hp : p ∈ R.nodes)
    (hfits : p.WellFormed)
    (hrun : (runAll settings [joinNames] p R.supply).outcome = .ok (q, s')) :
    KeepsSkeleton p q := by
  rw [outcome_runAll_cons] at hrun
  by_cases hon : joinNames.enabled settings = true
  · rw [if_pos hon] at hrun
    have hpass : joinNames.run settings p = p.alignJoins := rfl
    rw [hpass] at hrun
    cases hjoins : p.alignJoins.run R.supply with
    | error e =>
        rw [hjoins] at hrun
        cases hrun
    | ok result =>
        rw [hjoins] at hrun
        cases hrun
        exact Plan.keepsSkeleton_of_run_alignJoins hp hfits hjoins
  · rw [if_neg hon] at hrun
    cases hrun
    exact ⟨hfits, rfl⟩

/-- The standard passes keep the skeleton of a constructed plan, in whatever settings they run. -/
theorem keepsSkeleton_of_outcome_runAll_standard (hp : p.Constructed s)
    (hrun : (runAll settings standard p s).outcome = .ok (q, s')) : KeepsSkeleton p q := by
  rw [standard, outcome_runAll_cons] at hrun
  by_cases hon : starColumns.enabled settings = true
  · rw [if_pos hon] at hrun
    have hpass : starColumns.run settings p = p.separateStars := rfl
    rw [hpass] at hrun
    cases hstars : p.separateStars.run s with
    | error e =>
        rw [hstars] at hrun
        cases hrun
    | ok result =>
        obtain ⟨p', s₁⟩ := result
        rw [hstars] at hrun
        obtain ⟨hkeeps, R, rfl, hmem⟩ := Plan.keepsSkeleton_of_run_separateStars hp hstars
        exact hkeeps.trans (keepsSkeleton_of_outcome_runAll_joinNames hmem hkeeps.wellFormed hrun)
  · rw [if_neg hon] at hrun
    obtain ⟨R, rfl, hmem⟩ := hp.exists_register
    exact keepsSkeleton_of_outcome_runAll_joinNames hmem hp.wellFormed hrun

end Pass

/-- The joins of a skeleton, each before those below it, the left ones before the right ones. -/
def Skeleton.joins : Skeleton → List Skeleton
  | .source _ _ _ => []
  | .transform _ _ _ input => input.joins
  | .join types traits algorithm spec left right =>
    .join types traits algorithm spec left right :: (left.joins ++ right.joins)

namespace Plan

/-- The joins of a plan, each before those below it, the left ones before the right ones. -/
def joins (p : Plan) : List Plan := p.preorder.filter fun n => n.kind.isJoin

theorem joins_source {h : Header} {op : Source} : (source h op).joins = [] := by
  cases op <;> rfl

theorem joins_transform {h : Header} {op : Transform} {input : Plan} :
    (transform h op input).joins = input.joins := by
  cases op <;> rfl

theorem joins_join {h : Header} {algorithm : JoinAlgorithm} {spec : JoinSpec}
    {left right : Plan} : (join h algorithm spec left right).joins =
      .join h algorithm spec left right :: (left.joins ++ right.joins) := by
  rw [joins, joins, joins, ← List.filter_append]
  cases algorithm <;> rfl

theorem map_skeleton_joins (p : Plan) : p.joins.map skeleton = p.skeleton.joins := by
  induction p with
  | source h op =>
      rw [joins_source]
      rfl
  | transform h op input ih =>
      rw [joins_transform, ih, skeleton]
      split <;> rfl
  | join h algorithm spec left right ihl ihr =>
      rw [joins_join, List.map_cons, List.map_append, ihl, ihr]
      rfl

theorem exists_join_of_mem_joins {n p : Plan} (hn : n ∈ p.joins) :
    n ∈ p.preorder ∧ ∃ h algorithm spec left right, n = .join h algorithm spec left right := by
  obtain ⟨hmem, hkind⟩ := List.mem_filter.1 hn
  refine ⟨hmem, ?_⟩
  cases n with
  | source h op => cases op <;> cases hkind
  | transform h op input => cases op <;> cases hkind
  | join h algorithm spec left right => exact ⟨h, algorithm, spec, left, right, rfl⟩

/-- A plan of the same skeleton has the same joins in the same order. -/
theorem forall₂_joins_of_skeleton_eq {p q : Plan} (h : q.skeleton = p.skeleton) :
    List.Forall₂ (fun n n' => n'.skeleton = n.skeleton) p.joins q.joins := by
  have heq : q.joins.map skeleton = p.joins.map skeleton := by
    rw [map_skeleton_joins, map_skeleton_joins, h]
  have hall : List.Forall₂ (· = ·) (p.joins.map skeleton) (q.joins.map skeleton) :=
    heq ▸ List.forall₂_refl _
  rw [List.forall₂_map_left_iff, List.forall₂_map_right_iff] at hall
  exact hall.imp fun _ _ h => h.symm

end Plan

end QueryPlan
