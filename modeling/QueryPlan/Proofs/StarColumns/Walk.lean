import QueryPlan.Pass.StarColumns
import QueryPlan.Proofs.Plan.Construction

/-!
# What the walk on star columns makes of a plan

`Becomes σ s p q σ' s'` says that the walk, begun with the decisions `σ` and the identities
`s`, turns `p` into `q` and ends with the decisions `σ'` and the identities `s'`. At a leaf,
at an operator with one input and at a join there is one relation each that lists all that
can happen when the node is left, with the node that results.

A node is kept when its inputs have the identities they had. That they are then the very
inputs is a fact about registers, and it is used here once: in the relations a kept node
stands over unchanged inputs.
-/

namespace QueryPlan

namespace StarState

/-- The decisions after a node was entered. -/
def entering (σ : StarState) (p : Plan) : StarState :=
  { σ with prefixNeeded := σ.prefixNeeded || StarColumn.showsNeed p }

end StarState

namespace StarM

variable {α β : Type}

/-- The work is done from the decisions `σ` and the identities `s` with the result `a`, and
it ends with `σ'` and `s'`. -/
def Runs (x : StarM α) (σ : StarState) (s : NodeSupply) (a : α) (σ' : StarState)
    (s' : NodeSupply) : Prop :=
  (x.run σ).run s = .ok ((a, σ'), s')

variable {σ σ' : StarState} {s s' : NodeSupply}

theorem runs_bind_iff {x : StarM α} {f : α → StarM β} {b : β} :
    Runs (x >>= f) σ s b σ' s' ↔ ∃ a σ₁ s₁, Runs x σ s a σ₁ s₁ ∧ Runs (f a) σ₁ s₁ b σ' s' := by
  rw [Runs, StateT.run_bind, PlanM.run_bind_eq_ok_iff]
  constructor
  · rintro ⟨⟨a, σ₁⟩, s₁, hx, hf⟩
    exact ⟨a, σ₁, s₁, hx, hf⟩
  · rintro ⟨a, σ₁, s₁, hx, hf⟩
    exact ⟨(a, σ₁), s₁, hx, hf⟩

theorem runs_pure_iff {a b : α} :
    Runs (pure a) σ s b σ' s' ↔ b = a ∧ σ' = σ ∧ s' = s := by
  constructor
  · intro h
    cases h
    exact ⟨rfl, rfl, rfl⟩
  · rintro ⟨rfl, rfl, rfl⟩
    rfl

theorem runs_lift_iff {x : PlanM α} {a : α} :
    Runs (liftM x : StarM α) σ s a σ' s' ↔ x.run s = .ok (a, s') ∧ σ' = σ := by
  have hlift : (liftM x : StarM α).run σ = x >>= fun a => pure (a, σ) := rfl
  rw [Runs, hlift, PlanM.run_bind_eq_ok_iff]
  constructor
  · rintro ⟨b, s₁, hx, hpure⟩
    obtain ⟨heq, rfl⟩ := PlanM.run_pure_eq_ok_iff.1 hpure
    cases heq
    exact ⟨hx, rfl⟩
  · rintro ⟨hx, rfl⟩
    exact ⟨a, s', hx, rfl⟩

theorem runs_get_bind_iff {f : StarState → StarM β} {b : β} :
    Runs (get >>= f) σ s b σ' s' ↔ Runs (f σ) σ s b σ' s' :=
  Iff.rfl

theorem runs_set_bind_iff {τ : StarState} {x : StarM β} {b : β} :
    Runs ((set τ : StarM PUnit) >>= fun _ => x) σ s b σ' s' ↔ Runs x τ s b σ' s' :=
  Iff.rfl

end StarM

namespace StarColumn

open StarM

/-- The leaf under the projection that puts the prefix of number `i` before its star
columns. -/
def prefixedLeaf (s : NodeSupply) (i : Nat) (h : Header) (op : Source) : Plan :=
  .transform (s.header (.ofNamesTypes (withPrefixes i h.schema.names) h.schema.types) h.traits)
    (.project h.schema.identity false) (.source h op)

/-- The names that a projection takes over the new input. -/
def adoptedNames (input : Schema) (exprs : List Expr) (fields : List Field) : List String :=
  Names.disambiguate (inheritedNames input exprs fields)

/-- The operator is neither a projection nor at the boundary of the plan. -/
def isInner : Transform → Bool
  | .project _ _ | .writer _ | .screen => false
  | _ => true

/-- How a leaf is left. -/
inductive LeavesLeaf (σ : StarState) (s : NodeSupply) (h : Header) (op : Source) :
    Plan → StarState → NodeSupply → Prop where
  | kept : (σ.prefixNeeded = true → inRow h.schema = false) →
    LeavesLeaf σ s h op (.source h op)
      { σ with prefixNeeded := σ.prefixNeeded || isMixedRow (.source h op) } s
  | prefixed : σ.prefixNeeded = true → inRow h.schema = true →
    Names.distinct (withPrefixes σ.prefixedLeaves h.schema.names) = true →
    LeavesLeaf σ s h op (prefixedLeaf s σ.prefixedLeaves h op)
      { σ with prefixedLeaves := σ.prefixedLeaves + 1 } s.rest

/-- How an operator over `input` is left when its input has become `input'`. -/
inductive LeavesTransform (σ : StarState) (s : NodeSupply) (h : Header) :
    Transform → Plan → Plan → Plan → StarState → NodeSupply → Prop where
  | writerKept {target : Table} {input input' : Plan} : σ.prefixNeeded = false →
    LeavesTransform σ s h (.writer target) input input' (.transform h (.writer target) input) σ s
  | writerRebuilt {target : Table} {input input' : Plan} : σ.prefixNeeded = true →
    LeavesTransform σ s h (.writer target) input input'
      (.transform (s.header h.schema h.traits) (.writer target) input')
      { σ with writerRestores := true } s.rest
  | screenKept {input input' : Plan} : σ.prefixNeeded = false ∨ σ.prefixedLeaves = 0 →
    LeavesTransform σ s h .screen input input' (.transform h .screen input) σ s
  /-- A writer takes care of the names. -/
  | screenRebuilt {input input' : Plan} : σ.prefixNeeded = true → 0 < σ.prefixedLeaves →
    σ.writerRestores = true →
    LeavesTransform σ s h .screen input input'
      (.transform (s.header input'.schema h.traits) .screen input') σ s.rest
  | screenRestored {input input' : Plan} {allowDuplicates : Bool} : σ.prefixNeeded = true →
    0 < σ.prefixedLeaves → σ.writerRestores = false →
    (Transform.project h.schema.identity allowDuplicates).Fits input'.schema h.schema →
    allowDuplicates = decide (1 < h.schema.width) →
    LeavesTransform σ s h .screen input input'
      (.transform (s.rest.header h.schema h.traits) .screen
        (.transform (s.header h.schema input'.traits)
          (.project h.schema.identity allowDuplicates) input')) σ s.rest.rest
  | projectDropped {exprs : List Expr} {allowDuplicates : Bool} {input input' : Plan} :
    Plan.handsOn input'.schema.types exprs = true →
    LeavesTransform σ s h (.project exprs allowDuplicates) input input' input' σ s.rest
  | projectRebuilt {exprs : List Expr} {allowDuplicates : Bool} {input input' : Plan}
      {schema : Schema} :
    Plan.handsOn input'.schema.types exprs = false →
    schema.names = adoptedNames input'.schema exprs h.schema.fields →
    (Transform.project exprs false).Fits input'.schema schema →
    LeavesTransform σ s h (.project exprs allowDuplicates) input input'
      (.transform (s.header schema input'.traits) (.project exprs false) input') σ s.rest
  | kept {op : Transform} {input : Plan} : isInner op = true →
    LeavesTransform σ s h op input input (.transform h op input) σ s
  | rebuilt {op : Transform} {input input' : Plan} {schema : Schema} : isInner op = true →
    Plan.derivedSchema h.schema op input'.schema = .ok schema →
    LeavesTransform σ s h op input input' (.transform (s.header schema h.traits) op input') σ
      s.rest

/-- How a join is left when its inputs have become `left'` and `right'`. -/
inductive LeavesJoin (s : NodeSupply) (h : Header) (algorithm : JoinAlgorithm)
    (spec : JoinSpec) : Plan → Plan → Plan → Plan → Plan → NodeSupply → Prop where
  | kept {left right : Plan} :
    LeavesJoin s h algorithm spec left right left right (.join h algorithm spec left right) s
  | rebuilt {left right left' right' : Plan} :
    LeavesJoin s h algorithm spec left right left' right'
      (.join (s.header (.join left'.schema right'.schema spec.joinType)
        h.traits.forgetDistribution) algorithm spec left' right') s.rest

/-- The walk turns the first plan into the second. -/
inductive Becomes : StarState → NodeSupply → Plan → Plan → StarState → NodeSupply → Prop where
  | source {σ σ' : StarState} {s s' : NodeSupply} {h : Header} {op : Source} {q : Plan} :
    LeavesLeaf σ s h op q σ' s' → Becomes σ s (.source h op) q σ' s'
  | transform {σ σ₁ σ' : StarState} {s s₁ s' : NodeSupply} {h : Header} {op : Transform}
      {input input' q : Plan} :
    Becomes (σ.entering (.transform h op input)) s input input' σ₁ s₁ →
    LeavesTransform σ₁ s₁ h op input input' q σ' s' →
    Becomes σ s (.transform h op input) q σ' s'
  | join {σ σ₁ σ' : StarState} {s s₁ s₂ s' : NodeSupply} {h : Header}
      {algorithm : JoinAlgorithm} {spec : JoinSpec} {left right left' right' q : Plan} :
    Becomes (σ.entering (.join h algorithm spec left right)) s left left' σ₁ s₁ →
    Becomes σ₁ s₁ right right' σ' s₂ →
    LeavesJoin s₂ h algorithm spec left right left' right' q s' →
    Becomes σ s (.join h algorithm spec left right) q σ' s'

variable {σ σ' : StarState} {s s' : NodeSupply} {p q : Plan}

theorem eq_entering_of_runs_enter {u : Unit} (h : Runs (enter p) σ s u σ' s') :
    σ' = σ.entering p ∧ s' = s := by
  rw [enter] at h
  cases hneed : showsNeed p with
  | true =>
      rw [hneed] at h
      cases h
      simp [StarState.entering, hneed]
  | false =>
      rw [hneed] at h
      cases h
      simp [StarState.entering, hneed]

theorem leavesLeaf_of_runs {h : Header} {op : Source}
    (hrun : Runs (leave (.source h op) []) σ s q σ' s') : LeavesLeaf σ s h op q σ' s' := by
  rw [leave, leaveLeaf, runs_get_bind_iff] at hrun
  by_cases hboth : (σ.prefixNeeded && inRow h.schema) = true
  · obtain ⟨hneeded, hrow⟩ := Bool.and_eq_true_iff.1 hboth
    rw [Plan.schema, Plan.header, if_pos hboth, runs_set_bind_iff, runs_lift_iff] at hrun
    obtain ⟨hproject, rfl⟩ := hrun
    obtain ⟨-, hnames, -, rfl, rfl⟩ := Plan.run_projectWith_eq_ok_iff.1 hproject
    rw [Schema.map_type_identity]
    exact .prefixed hneeded hrow (hnames rfl)
  · rw [Plan.schema, Plan.header, if_neg hboth] at hrun
    have hkept : q = .source h op ∧
        σ' = { σ with prefixNeeded := σ.prefixNeeded || isMixedRow (.source h op) } ∧ s' = s := by
      cases hneed : isMixedRow (.source h op) with
      | true =>
          rw [hneed] at hrun
          cases hrun
          simp
      | false =>
          rw [hneed] at hrun
          cases hrun
          simp
    obtain ⟨rfl, rfl, rfl⟩ := hkept
    refine .kept fun hneeded => ?_
    simpa [hneeded] using hboth

theorem leavesTransform_of_runs_leaveWriter {h : Header} {target : Table} {input input' : Plan}
    (hrun : Runs (leaveWriter (.transform h (.writer target) input) [input']) σ s q σ' s') :
    LeavesTransform σ s h (.writer target) input input' q σ' s' := by
  rw [leaveWriter, runs_get_bind_iff] at hrun
  cases hneeded : σ.prefixNeeded with
  | true =>
      rw [if_pos hneeded, runs_set_bind_iff, runs_lift_iff] at hrun
      obtain ⟨hbuild, rfl⟩ := hrun
      obtain ⟨schema, hschema, rfl, rfl⟩ := Plan.run_withInputs_transform_eq_ok_iff.1 hbuild
      cases hschema
      exact .writerRebuilt hneeded
  | false =>
      rw [hneeded, if_neg Bool.false_ne_true] at hrun
      obtain ⟨rfl, rfl, rfl⟩ := runs_pure_iff.1 hrun
      exact .writerKept hneeded

theorem leavesTransform_of_runs_leaveScreen {h : Header} {input input' : Plan}
    (hrun : Runs (leaveScreen (.transform h .screen input) [input']) σ s q σ' s') :
    LeavesTransform σ s h .screen input input' q σ' s' := by
  rw [leaveScreen, runs_get_bind_iff] at hrun
  by_cases hneeded : (σ.prefixNeeded && decide (0 < σ.prefixedLeaves)) = true
  · rw [if_pos hneeded] at hrun
    rw [Bool.and_eq_true, decide_eq_true_eq] at hneeded
    cases hwriter : σ.writerRestores with
    | true =>
        rw [hwriter, if_pos rfl, runs_lift_iff] at hrun
        obtain ⟨hbuild, rfl⟩ := hrun
        obtain ⟨schema, hschema, rfl, rfl⟩ := Plan.run_withInputs_transform_eq_ok_iff.1 hbuild
        cases hschema
        exact .screenRebuilt hneeded.1 hneeded.2 hwriter
    | false =>
        rw [hwriter, if_neg Bool.false_ne_true, runs_bind_iff] at hrun
        obtain ⟨restored, σ₁, s₁, hrestore, hrebuild⟩ := hrun
        obtain ⟨hproject, rfl⟩ := runs_lift_iff.1 hrestore
        obtain ⟨hbuild, rfl⟩ := runs_lift_iff.1 hrebuild
        obtain ⟨hordinals, hnames, -, rfl, rfl⟩ := Plan.run_projectWith_eq_ok_iff.1 hproject
        obtain ⟨schema, hschema, rfl, rfl⟩ := Plan.run_withInputs_transform_eq_ok_iff.1 hbuild
        have hrow : Schema.ofNamesTypes h.schema.names (h.schema.identity.map Expr.type) =
            h.schema := by
          rw [Schema.map_type_identity, Schema.ofNamesTypes_self]
        cases hschema
        simp only [Plan.schema_transform, Plan.fieldNames, NodeSupply.schema_header, hrow]
        exact .screenRestored hneeded.1 hneeded.2 hwriter
          ⟨hordinals, (Schema.map_type_identity _).symm, hnames⟩ rfl
  · rw [if_neg hneeded] at hrun
    obtain ⟨rfl, rfl, rfl⟩ := runs_pure_iff.1 hrun
    refine .screenKept ?_
    simpa [Bool.and_eq_true, imp_iff_not_or] using hneeded

theorem leavesTransform_of_runs_leaveProject {h : Header} {exprs : List Expr}
    {allowDuplicates : Bool} {input input' : Plan}
    (hrun : Runs (leaveProject (.transform h (.project exprs allowDuplicates) input) exprs
      [input']) σ s q σ' s') :
    LeavesTransform σ s h (.project exprs allowDuplicates) input input' q σ' s' := by
  rw [leaveProject, runs_bind_iff] at hrun
  obtain ⟨rebuilt, σ₁, s₁, hrebuilt, hpure⟩ := hrun
  obtain ⟨hproject, rfl⟩ := runs_lift_iff.1 hrebuilt
  obtain ⟨rfl, rfl, rfl⟩ := runs_pure_iff.1 hpure
  obtain ⟨hordinals, hnames, hlength, rfl, rfl⟩ := Plan.run_projectWith_eq_ok_iff.1 hproject
  have hlength' : (adoptedNames input'.schema exprs h.schema.fields).length =
      (exprs.map Expr.type).length := by
    rw [List.length_map]
    exact hlength.symm
  rw [Plan.isIdentityProjection_project]
  by_cases hidentity : Plan.handsOn input'.schema.types exprs = true
  · rw [if_pos hidentity]
    exact .projectDropped hidentity
  · rw [if_neg hidentity]
    refine .projectRebuilt (Bool.eq_false_iff.2 hidentity)
      (Schema.names_ofNamesTypes hlength')
      ⟨hordinals, Schema.types_ofNamesTypes hlength', fun _ => ?_⟩
    exact Schema.names_ofNamesTypes hlength' ▸ hnames rfl

/-- A node whose inputs have the identities of its own ones is kept over these very inputs. -/
theorem leavesTransform_of_runs {R : Register} {h : Header} {op : Transform}
    {input input' : Plan} (hp : .transform h op input ∈ R.nodes) (hinput : input' ∈ R.nodes)
    (hrun : Runs (leave (.transform h op input) [input']) σ s q σ' s') :
    LeavesTransform σ s h op input input' q σ' s' := by
  have hinner : isInner op = true →
      Runs (liftM ((Plan.transform h op input).keepOver [input']) : StarM Plan) σ s q σ' s' →
        LeavesTransform σ s h op input input' q σ' s' := by
    intro hop hlift
    obtain ⟨hkeep, rfl⟩ := runs_lift_iff.1 hlift
    rcases Plan.run_keepOver_eq_ok_iff.1 hkeep with ⟨hsame, rfl, rfl⟩ | ⟨-, hbuild⟩
    · have heq : [input'] = [input] :=
        (R.hasInputs_iff hp (List.forall_mem_singleton.2 hinput)).1 hsame
      rw [List.singleton_inj.1 heq]
      exact .kept hop
    · obtain ⟨schema, hschema, rfl, rfl⟩ := Plan.run_withInputs_transform_eq_ok_iff.1 hbuild
      exact .rebuilt hop hschema
  cases op with
  | writer target => exact leavesTransform_of_runs_leaveWriter hrun
  | screen => exact leavesTransform_of_runs_leaveScreen hrun
  | project exprs allowDuplicates => exact leavesTransform_of_runs_leaveProject hrun
  | filter predicate => exact hinner rfl hrun
  | aggregate groupBy aggregates => exact hinner rfl hrun
  | sort order => exact hinner rfl hrun
  | limit offset count => exact hinner rfl hrun
  | exchange distribution => exact hinner rfl hrun

theorem leavesJoin_of_runs {R : Register} {h : Header} {algorithm : JoinAlgorithm}
    {spec : JoinSpec} {left right left' right' : Plan}
    (hp : .join h algorithm spec left right ∈ R.nodes) (hleft : left' ∈ R.nodes)
    (hright : right' ∈ R.nodes)
    (hrun : Runs (leave (.join h algorithm spec left right) [left', right']) σ s q σ' s') :
    LeavesJoin s h algorithm spec left right left' right' q s' ∧ σ' = σ := by
  obtain ⟨hkeep, rfl⟩ := runs_lift_iff.1 hrun
  refine ⟨?_, rfl⟩
  rcases Plan.run_keepOver_eq_ok_iff.1 hkeep with ⟨hsame, rfl, rfl⟩ | ⟨-, hbuild⟩
  · have heq : [left', right'] = [left, right] :=
      (R.hasInputs_iff hp (by simp [hleft, hright])).1 hsame
    rw [List.cons.injEq, List.singleton_inj] at heq
    rw [heq.1, heq.2]
    exact .kept
  · obtain ⟨rfl, rfl⟩ := Plan.run_withInputs_join_eq_ok_iff.1 hbuild
    exact .rebuilt

section Register

variable {R : Register} {h : Header}

theorem LeavesLeaf.exists_register {op : Source} (hstep : LeavesLeaf σ R.supply h op q σ' s')
    (hp : .source h op ∈ R.nodes) : ∃ R', R.Grows R' ∧ R'.supply = s' ∧ q ∈ R'.nodes := by
  cases hstep with
  | kept => exact ⟨R, .refl R, rfl, hp⟩
  | prefixed => exact R.exists_add rfl (List.forall_mem_singleton.2 hp)

theorem LeavesTransform.exists_register {op : Transform} {input input' : Plan}
    (hstep : LeavesTransform σ R.supply h op input input' q σ' s')
    (hp : .transform h op input ∈ R.nodes) (hinput : input' ∈ R.nodes) :
    ∃ R', R.Grows R' ∧ R'.supply = s' ∧ q ∈ R'.nodes := by
  have hover : ∀ i ∈ [input'], i ∈ R.nodes := List.forall_mem_singleton.2 hinput
  cases hstep with
  | writerKept | screenKept | kept => exact ⟨R, .refl R, rfl, hp⟩
  | writerRebuilt | screenRebuilt | projectRebuilt | rebuilt => exact R.exists_add rfl hover
  | projectDropped => exact ⟨R.skip _ (Nat.le_succ _), R.grows_skip _ _, rfl, hinput⟩
  | @screenRestored _ _ allowDuplicates =>
      obtain ⟨R₁, hgrows, hsupply, hrestored⟩ : ∃ R', R.Grows R' ∧ R'.supply = R.supply.rest ∧
          Plan.transform (R.supply.header h.schema input'.traits)
            (.project h.schema.identity allowDuplicates) input' ∈ R'.nodes :=
        R.exists_add rfl hover
      rw [← hsupply]
      obtain ⟨R₂, hgrows', hsupply', hscreen⟩ := R₁.exists_add rfl
        (p := .transform (R₁.supply.header h.schema h.traits) .screen _)
        (List.forall_mem_singleton.2 hrestored)
      exact ⟨R₂, hgrows.trans hgrows', hsupply', hscreen⟩

theorem LeavesJoin.exists_register {algorithm : JoinAlgorithm} {spec : JoinSpec}
    {left right left' right' : Plan}
    (hstep : LeavesJoin R.supply h algorithm spec left right left' right' q s')
    (hp : .join h algorithm spec left right ∈ R.nodes) (hleft : left' ∈ R.nodes)
    (hright : right' ∈ R.nodes) : ∃ R', R.Grows R' ∧ R'.supply = s' ∧ q ∈ R'.nodes := by
  cases hstep with
  | kept => exact ⟨R, .refl R, rfl, hp⟩
  | rebuilt => exact R.exists_add rfl (by simp [Plan.inputs, hleft, hright])

end Register

/-- What the walk returns is what the plan becomes, and it is a plan over the nodes there
were and new ones. -/
theorem becomes_of_runs_walk {R : Register} (hp : p ∈ R.nodes)
    (hrun : Runs (p.walk ⟨enter, leave⟩) σ R.supply q σ' s') :
    Becomes σ R.supply p q σ' s' ∧ ∃ R', R.Grows R' ∧ R'.supply = s' ∧ q ∈ R'.nodes := by
  induction p generalizing R σ q σ' s' with
  | source h op =>
      obtain ⟨u, σ₁, s₁, henter, hleave⟩ := runs_bind_iff.1 hrun
      obtain ⟨rfl, rfl⟩ := eq_entering_of_runs_enter (p := .source h op) henter
      have hσ : σ.entering (.source h op) = σ := by simp [StarState.entering, showsNeed]
      have hstep := leavesLeaf_of_runs hleave
      rw [hσ] at hstep
      exact ⟨.source hstep, hstep.exists_register hp⟩
  | transform h op input ih =>
      obtain ⟨u, σ₁, s₁, henter, hrest⟩ := runs_bind_iff.1 hrun
      obtain ⟨rfl, rfl⟩ := eq_entering_of_runs_enter (p := .transform h op input) henter
      obtain ⟨input', σ₁, s₁, hinput, hleave⟩ := runs_bind_iff.1 hrest
      obtain ⟨hbecomes, R₁, hgrows, rfl, hmem⟩ :=
        ih (R.input_mem _ hp input (by simp [Plan.inputs])) hinput
      have hp₁ := hgrows.nodes_subset hp
      have hstep := leavesTransform_of_runs hp₁ hmem hleave
      obtain ⟨R', hgrows', hsupply, hq⟩ := hstep.exists_register hp₁ hmem
      exact ⟨.transform hbecomes hstep, R', hgrows.trans hgrows', hsupply, hq⟩
  | join h algorithm spec left right ihl ihr =>
      obtain ⟨u, σ₁, s₁, henter, hrest⟩ := runs_bind_iff.1 hrun
      obtain ⟨rfl, rfl⟩ := eq_entering_of_runs_enter
        (p := .join h algorithm spec left right) henter
      obtain ⟨left', σ₁, s₁, hleft, hrest⟩ := runs_bind_iff.1 hrest
      obtain ⟨right', σ₂, s₂, hright, hleave⟩ := runs_bind_iff.1 hrest
      obtain ⟨hleft', R₁, hgrows₁, rfl, hmem₁⟩ :=
        ihl (R.input_mem _ hp left (by simp [Plan.inputs])) hleft
      obtain ⟨hright', R₂, hgrows₂, rfl, hmem₂⟩ :=
        ihr (hgrows₁.nodes_subset (R.input_mem _ hp right (by simp [Plan.inputs]))) hright
      have hgrows := hgrows₁.trans hgrows₂
      have hp₂ := hgrows.nodes_subset hp
      have hmem₁' := hgrows₂.nodes_subset hmem₁
      obtain ⟨hstep, rfl⟩ := leavesJoin_of_runs hp₂ hmem₁' hmem₂ hleave
      obtain ⟨R', hgrows', hsupply, hq⟩ := hstep.exists_register hp₂ hmem₁' hmem₂
      exact ⟨.join hleft' hright' hstep, R', hgrows.trans hgrows', hsupply, hq⟩

/-- A run of the pass on a constructed plan is a walk that begins with nothing decided. -/
theorem becomes_of_run_separateStarsWith (hp : p.Constructed s)
    (hrun : p.separateStarsWith.run s = .ok ((q, σ'), s')) :
    Becomes {} s p q σ' s' ∧ ∃ R : Register, R.supply = s' ∧ q ∈ R.nodes := by
  obtain ⟨R, rfl, hmem⟩ := hp.exists_register
  obtain ⟨hwalk, R', -, hsupply, hq⟩ := becomes_of_runs_walk hmem hrun
  exact ⟨hwalk, R', hsupply, hq⟩

theorem exists_run_separateStarsWith (hrun : p.separateStars.run s = .ok (q, s')) :
    ∃ σ', p.separateStarsWith.run s = .ok ((q, σ'), s') := by
  obtain ⟨⟨q', σ'⟩, s₁, hwalk, hpure⟩ := PlanM.run_bind_eq_ok_iff.1 hrun
  obtain ⟨rfl, rfl⟩ := PlanM.run_pure_eq_ok_iff.1 hpure
  exact ⟨σ', hwalk⟩

end StarColumn

end QueryPlan
