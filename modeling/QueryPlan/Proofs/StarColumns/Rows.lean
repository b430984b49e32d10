import QueryPlan.Proofs.Plan.Replacement
import QueryPlan.Proofs.StarColumns.Walk

/-!
# The rows of a plan with separated star columns

The walk gives new names to fields and never touches their types. So every operator finds
its ordinals where they were, and a well-formed plan becomes a well-formed plan. What is
known about the organisation of the output stays as it was.

Along `Becomes` this is known of every subplan and together with the traits. Of the work as a
whole it is known for well-formed plans of any origin: a node that is kept by mistake, because
nodes cannot be told by their identities, is well-formed all the same.
-/

namespace QueryPlan

namespace StarColumn

open StarM

variable {σ σ' : StarState} {s s' : NodeSupply} {p q : Plan} {h : Header}

theorem types_prefixedLeaf (s : NodeSupply) (k : Nat) (h : Header) (op : Source) :
    (prefixedLeaf s k h op).schema.types = h.schema.types :=
  Schema.types_ofNamesTypes (by simp [withPrefixes])

theorem fieldNames_prefixedLeaf (s : NodeSupply) (k : Nat) (h : Header) (op : Source) :
    (prefixedLeaf s k h op).fieldNames = withPrefixes k h.schema.names :=
  Schema.names_ofNamesTypes (by simp [withPrefixes])

theorem LeavesLeaf.types_eq {op : Source} (hstep : LeavesLeaf σ s h op q σ' s') :
    q.schema.types = h.schema.types := by
  cases hstep with
  | kept => rfl
  | prefixed => exact types_prefixedLeaf s σ.prefixedLeaves h op

theorem LeavesLeaf.wellFormed {op : Source} (hstep : LeavesLeaf σ s h op q σ' s') :
    q.WellFormed := by
  cases hstep with
  | kept => exact Plan.wellFormed_source
  | prefixed _ _ hdistinct =>
      rw [← fieldNames_prefixedLeaf s _ h op] at hdistinct
      refine Plan.wellFormed_transform.2 ⟨⟨fun e => Schema.lt_width_of_mem_identity, ?_,
        fun _ => hdistinct⟩, Plan.wellFormed_source⟩
      rw [Schema.map_type_identity]
      exact types_prefixedLeaf s σ.prefixedLeaves h op

theorem LeavesLeaf.traits_eq {op : Source} (hstep : LeavesLeaf σ s h op q σ' s') :
    q.traits = h.traits := by
  cases hstep <;> rfl

section Transform

variable {op : Transform} {input input' : Plan}

theorem LeavesTransform.types_eq (hstep : LeavesTransform σ s h op input input' q σ' s')
    (hfits : op.Fits input.schema h.schema)
    (htypes : input'.schema.types = input.schema.types) : q.schema.types = h.schema.types := by
  cases hstep with
  | writerKept | screenKept | kept | writerRebuilt | screenRestored => rfl
  | screenRebuilt =>
      have hrow : h.schema = input.schema := hfits
      rw [hrow]
      exact htypes
  | projectDropped hidentity =>
      rw [Plan.handsOn_iff] at hidentity
      rw [hfits.2.1, hidentity, Schema.map_type_identity]
  | projectRebuilt _ _ hfits' =>
      rw [hfits.2.1]
      exact hfits'.2.1
  | rebuilt _ hschema =>
      obtain ⟨schema, hderived, -, htypes'⟩ := hfits.exists_derivedSchema htypes
      rw [hschema, Except.ok.injEq] at hderived
      rw [← htypes', ← hderived]
      rfl

theorem LeavesTransform.wellFormed (hstep : LeavesTransform σ s h op input input' q σ' s')
    (hp : (Plan.transform h op input).WellFormed)
    (htypes : input'.schema.types = input.schema.types) (hinput : input'.WellFormed) :
    q.WellFormed := by
  have hfits : op.Fits input.schema h.schema := (Plan.wellFormed_transform.1 hp).1
  cases hstep with
  | writerKept | screenKept | kept => exact hp
  | writerRebuilt => exact Plan.wellFormed_transform.2 ⟨hfits, hinput⟩
  | screenRebuilt => exact Plan.wellFormed_transform.2 ⟨rfl, hinput⟩
  | screenRestored _ _ _ hfits' =>
      exact Plan.wellFormed_transform.2 ⟨rfl, Plan.wellFormed_transform.2 ⟨hfits', hinput⟩⟩
  | projectDropped => exact hinput
  | projectRebuilt _ _ hfits' => exact Plan.wellFormed_transform.2 ⟨hfits', hinput⟩
  | rebuilt _ hschema =>
      obtain ⟨schema, hderived, hfits', -⟩ := hfits.exists_derivedSchema htypes
      rw [hschema, Except.ok.injEq] at hderived
      exact Plan.wellFormed_transform.2 ⟨hderived ▸ hfits', hinput⟩

theorem LeavesTransform.traits_eq (hstep : LeavesTransform σ s h op input input' q σ' s')
    (hfits : (Plan.transform h op input).TraitsFit) (htraits : input'.traits = input.traits) :
    q.traits = h.traits := by
  have hp : h.traits = op.traits input.traits := hfits
  cases hstep with
  | writerKept | screenKept | kept | writerRebuilt | screenRebuilt | screenRestored | rebuilt =>
      rfl
  | projectDropped | projectRebuilt =>
      rw [hp]
      exact htraits

end Transform

section Join

variable {algorithm : JoinAlgorithm} {spec : JoinSpec} {left right left' right' : Plan}

theorem LeavesJoin.types_eq
    (hstep : LeavesJoin s h algorithm spec left right left' right' q s')
    (hfits : spec.Fits left.schema right.schema h.schema)
    (hleft : left'.schema.types = left.schema.types)
    (hright : right'.schema.types = right.schema.types) : q.schema.types = h.schema.types := by
  cases hstep with
  | kept => rfl
  | rebuilt => exact (hfits.over hleft hright).2

theorem LeavesJoin.wellFormed
    (hstep : LeavesJoin s h algorithm spec left right left' right' q s')
    (hp : (Plan.join h algorithm spec left right).WellFormed)
    (hltypes : left'.schema.types = left.schema.types)
    (hrtypes : right'.schema.types = right.schema.types) (hleft : left'.WellFormed)
    (hright : right'.WellFormed) : q.WellFormed := by
  cases hstep with
  | kept => exact hp
  | rebuilt =>
      obtain ⟨⟨hfits, -⟩, -, -⟩ := Plan.wellFormed_join.1 hp
      exact Plan.wellFormed_join.2 ⟨⟨(hfits.over hltypes hrtypes).1, rfl⟩, hleft, hright⟩

theorem LeavesJoin.traits_eq
    (hstep : LeavesJoin s h algorithm spec left right left' right' q s')
    (hany : h.traits.distribution = .any) : q.traits = h.traits := by
  cases hstep with
  | kept => rfl
  | rebuilt => exact Traits.forgetDistribution_of_any hany

end Join

/-- The walk keeps the column types, and what it returns is well-formed. -/
theorem Becomes.wellFormed (hwalk : Becomes σ s p q σ' s') (hp : p.WellFormed) :
    q.WellFormed ∧ q.schema.types = p.schema.types := by
  induction hwalk with
  | source hstep => exact ⟨hstep.wellFormed, hstep.types_eq⟩
  | transform _ hstep ih =>
      obtain ⟨hfits, hinput⟩ := Plan.wellFormed_transform.1 hp
      obtain ⟨hinput', htypes⟩ := ih hinput
      exact ⟨hstep.wellFormed hp htypes hinput', hstep.types_eq hfits htypes⟩
  | join _ _ hstep ihl ihr =>
      obtain ⟨⟨hfits, -⟩, hleft, hright⟩ := Plan.wellFormed_join.1 hp
      obtain ⟨hleft', hltypes⟩ := ihl hleft
      obtain ⟨hright', hrtypes⟩ := ihr hright
      exact ⟨hstep.wellFormed hp hltypes hrtypes hleft' hright',
        hstep.types_eq hfits hltypes hrtypes⟩

/-- Whatever a node is left as can take its place, if what its input became can take the
place of its input. -/
theorem replacedBy_of_runs_leave_transform {op : Transform} {input input' : Plan}
    (hp : (Plan.transform h op input).WellFormed) (hinput : input.ReplacedBy input')
    (hrun : Runs (leave (.transform h op input) [input']) σ s q σ' s') :
    Plan.ReplacedBy (.transform h op input) q := by
  have hfits : op.Fits input.schema h.schema := (Plan.wellFormed_transform.1 hp).1
  have hstep : LeavesTransform σ s h op input input' q σ' s' →
      Plan.ReplacedBy (.transform h op input) q := fun hstep =>
    ⟨hstep.wellFormed hp hinput.types_eq hinput.wellFormed,
      hstep.types_eq hfits hinput.types_eq⟩
  have hinner : Runs (liftM ((Plan.transform h op input).keepOver [input']) : StarM Plan)
      σ s q σ' s' → Plan.ReplacedBy (.transform h op input) q := fun hlift =>
    Plan.replacedBy_of_run_keepOver_transform hp hinput (runs_lift_iff.1 hlift).1
  cases op with
  | writer target => exact hstep (leavesTransform_of_runs_leaveWriter hrun)
  | screen => exact hstep (leavesTransform_of_runs_leaveScreen hrun)
  | project exprs allowDuplicates => exact hstep (leavesTransform_of_runs_leaveProject hrun)
  | filter predicate => exact hinner hrun
  | aggregate groupBy aggregates => exact hinner hrun
  | sort order => exact hinner hrun
  | limit offset count => exact hinner hrun
  | exchange distribution => exact hinner hrun

theorem replacedBy_of_runs_walk (hp : p.WellFormed)
    (hrun : Runs (p.walk ⟨enter, leave⟩) σ s q σ' s') : p.ReplacedBy q := by
  induction p generalizing σ s q σ' s' with
  | source h op =>
      obtain ⟨u, σ₁, s₁, -, hleave⟩ := runs_bind_iff.1 hrun
      have hstep := leavesLeaf_of_runs hleave
      exact ⟨hstep.wellFormed, hstep.types_eq⟩
  | transform h op input ih =>
      obtain ⟨u, σ₁, s₁, -, hrest⟩ := runs_bind_iff.1 hrun
      obtain ⟨input', σ₂, s₂, hinput, hleave⟩ := runs_bind_iff.1 hrest
      exact replacedBy_of_runs_leave_transform hp
        (ih (Plan.wellFormed_transform.1 hp).2 hinput) hleave
  | join h algorithm spec left right ihl ihr =>
      obtain ⟨-, hleft, hright⟩ := Plan.wellFormed_join.1 hp
      obtain ⟨u, σ₁, s₁, -, hrest⟩ := runs_bind_iff.1 hrun
      obtain ⟨left', σ₂, s₂, hlrun, hrest⟩ := runs_bind_iff.1 hrest
      obtain ⟨right', σ₃, s₃, hrrun, hleave⟩ := runs_bind_iff.1 hrest
      exact Plan.replacedBy_of_run_keepOver_join hp (ihl hleft hlrun) (ihr hright hrrun)
        (runs_lift_iff.1 hleave).1

/-- What the walk on star columns returns can take the place of the plan it was given. -/
theorem replacedBy_of_run_separateStars (hp : p.WellFormed)
    (hrun : p.separateStars.run s = .ok (q, s')) : p.ReplacedBy q := by
  obtain ⟨σ', hwalk⟩ := exists_run_separateStarsWith hrun
  exact replacedBy_of_runs_walk hp hwalk

end StarColumn

end QueryPlan
