import QueryPlan.Proofs.Plan.Comparison
import QueryPlan.Proofs.StarColumns.Clashes

/-!
# Star columns of plans that are the same

The walk on star columns looks at rows, traits and operators. It looks at identities as well,
to keep a node over the inputs it has. A kept node carries what it would carry if it were made
again over these inputs, so which of the two happens cannot be seen in the result. Two walks
over plans that are the same, begun with the same decisions, take the same steps then: they
end with the same decisions and with plans that are the same.

Whether the walk is refused, and with which names, is a function of the rows alone.
-/

namespace QueryPlan

namespace StarColumn

open Plan (Alike derivedSchema)

section Reading

variable {exprs exprs' : List Expr} {op op' : Transform} {p p' : Plan}

theorem isProjected_eq_of_beq (h : (exprs == exprs') = true) (row : Schema) :
    isProjected row exprs = isProjected row exprs' := by
  have href : ∀ exprs : List Expr, isProjected row exprs = (exprs.map Expr.bareOrdinal?).any
      fun o => (o.bind row.field?).any fun f => isBare f.name := by
    intro exprs
    rw [isProjected, List.any_map]
    rfl
  rw [href, href, Expr.map_read_eq_of_beq Expr.bareOrdinal?_canonical h]

theorem adoptedNames_eq_of_beq (h : (exprs == exprs') = true) (row : Schema)
    (fields : List Field) : adoptedNames row exprs fields = adoptedNames row exprs' fields := by
  have href : ∀ exprs : List Expr, inheritedNames row exprs fields =
      List.zipWith (fun o f => ((o.bind row.field?).map Field.name).getD f.name)
        (exprs.map Expr.bareOrdinal?) fields := by
    intro exprs
    rw [inheritedNames, List.zipWith_map_left]
  rw [adoptedNames, adoptedNames, href, href, Expr.map_read_eq_of_beq Expr.bareOrdinal?_canonical h]

theorem isInner_eq_of_beq (h : (op == op') = true) : isInner op = isInner op' := by
  cases op <;> cases op' <;> first | rfl | cases h

theorem isAmbiguous_of_isInner (hop : isInner op = true) (h : Header) (input : Plan) :
    isAmbiguous (.transform h op input) = (inRow h.schema && decide (1 < h.schema.width)) := by
  cases op <;> first | rfl | cases hop

theorem isMixedRow_eq_of_schema_eq (hrow : p.schema = p'.schema) :
    isMixedRow p = isMixedRow p' := by
  rw [isMixedRow, isMixedRow, Plan.width, Plan.width, hrow]

/-- Whether a node is ambiguous is read off rows and references. -/
theorem isAmbiguous_eq_of_alike (halike : Alike p p') : isAmbiguous p = isAmbiguous p' := by
  cases halike with
  | source hrow _ => exact isMixedRow_eq_of_schema_eq hrow
  | @transform h h' op op' input input' hrow _ hop hinput =>
      cases hinner : isInner op with
      | true =>
          rw [isAmbiguous_of_isInner hinner,
            isAmbiguous_of_isInner ((isInner_eq_of_beq hop).symm.trans hinner), hrow]
      | false =>
          cases op with
          | project exprs allowDuplicates =>
              obtain ⟨exprs', rfl, hexprs⟩ := Transform.eq_project_of_beq hop
              rw [isAmbiguous, isAmbiguous, hrow, hinput.schema_eq, isProjected_eq_of_beq hexprs]
          | writer target =>
              rw [Transform.eq_writer_of_beq hop]
              rfl
          | screen =>
              rw [Transform.eq_screen_of_beq hop]
              rfl
          | _ => cases hinner
  | join hrow _ _ _ _ => exact isMixedRow_eq_of_schema_eq hrow

theorem leafMarks_eq_of_alike {nodes nodes' : List Plan} (h : List.Forall₂ Alike nodes nodes')
    (seen : Bool) : leafMarks seen nodes = leafMarks seen nodes' := by
  induction h generalizing seen with
  | nil => rfl
  | cons hn _ ih =>
      rw [leafMarks, leafMarks, hn.isLeaf_eq, hn.schema_eq, isAmbiguous_eq_of_alike hn, ih]

theorem nextIds_eq_of_alike (h : Alike p p') (σ : StarState) : σ.nextIds p = σ.nextIds p' := by
  rw [StarState.nextIds, StarState.nextIds, leafMarks_eq_of_alike h.forall₂_preorder]

theorem entering_eq_of_alike (h : Alike p p') (σ : StarState) :
    σ.entering p = σ.entering p' := by
  cases hleaf : p.isLeaf with
  | true => cases h <;> first | rfl | cases hleaf
  | false =>
      have hneeded : (σ.entering p).prefixNeeded = (σ.entering p').prefixNeeded := by
        rw [StarState.prefixNeeded_entering hleaf,
          StarState.prefixNeeded_entering (h.isLeaf_eq.symm.trans hleaf),
          isAmbiguous_eq_of_alike h]
      exact congrArg (fun needed => { σ with prefixNeeded := needed }) hneeded

end Reading

section Steps

variable {σ σ₁ σ₂ : StarState} {s t s₁ t₁ : NodeSupply} {p p' q q' : Plan} {h h' : Header}
  {op op' : Transform}

theorem LeavesLeaf.alike {op : Source} (hrow : h.schema = h'.schema)
    (htraits : h.traits = h'.traits) (hstep : LeavesLeaf σ s h op q σ₁ s₁)
    (hstep' : LeavesLeaf σ t h' op q' σ₂ t₁) : Alike q q' ∧ σ₁ = σ₂ := by
  cases hstep with
  | kept hbare =>
      cases hstep' with
      | kept =>
          have hmixed : isMixedRow (.source h op) = isMixedRow (.source h' op) :=
            isMixedRow_eq_of_schema_eq hrow
          rw [hmixed]
          exact ⟨.source hrow htraits, rfl⟩
      | prefixed hneeded hstar =>
          rw [← hrow, hbare hneeded] at hstar
          cases hstar
  | prefixed hneeded hstar =>
      cases hstep' with
      | kept hbare =>
          rw [hrow, hbare hneeded] at hstar
          cases hstar
      | prefixed =>
          refine ⟨.transform ?_ htraits ?_ (.source hrow htraits), rfl⟩
          · simp only [NodeSupply.schema_header, hrow]
          · rw [hrow]
            exact BEq.rfl

/-- An operator within the plan is what it would be if it were made again. -/
theorem LeavesTransform.exists_remade {input input' : Plan} (hop : isInner op = true)
    (hfits : op.Fits input.schema h.schema)
    (hstep : LeavesTransform σ s h op input input' q σ₁ s₁) :
    σ₁ = σ ∧ ∃ h', q = .transform h' op input' ∧
      derivedSchema h.schema op input'.schema = .ok h'.schema ∧ h'.traits = h.traits := by
  cases hstep with
  | kept => exact ⟨rfl, h, rfl, hfits.derivedSchema_eq, rfl⟩
  | rebuilt _ hschema => exact ⟨rfl, _, rfl, hschema, rfl⟩
  | _ => cases hop

/-- A join is what it would be if it were made again. -/
theorem LeavesJoin.exists_remade {algorithm : JoinAlgorithm} {spec : JoinSpec}
    {left right left' right' : Plan} (hfits : spec.Fits left.schema right.schema h.schema)
    (hany : h.traits.distribution = .any)
    (hstep : LeavesJoin s h algorithm spec left right left' right' q s₁) :
    ∃ h', q = .join h' algorithm spec left' right' ∧
      h'.schema = .join left'.schema right'.schema spec.joinType ∧ h'.traits = h.traits := by
  cases hstep with
  | kept => exact ⟨h, rfl, hfits.2.2, rfl⟩
  | rebuilt => exact ⟨_, rfl, rfl, Traits.forgetDistribution_of_any hany⟩

theorem LeavesTransform.alike_project {exprs exprs' : List Expr} {allowDuplicates : Bool}
    {input input' inputₗ inputᵣ : Plan} (hexprs : (exprs == exprs') = true)
    (hrow : h.schema = h'.schema) (hinput : Alike inputₗ inputᵣ)
    (hstep : LeavesTransform σ s h (.project exprs allowDuplicates) input inputₗ q σ₁ s₁)
    (hstep' : LeavesTransform σ t h' (.project exprs' allowDuplicates) input' inputᵣ q' σ₂ t₁) :
    Alike q q' ∧ σ₁ = σ₂ := by
  have hhands : Plan.handsOn inputₗ.schema.types exprs =
      Plan.handsOn inputᵣ.schema.types exprs' := by
    rw [hinput.schema_eq, Plan.handsOn_eq_of_beq _ hexprs]
  cases hstep with
  | projectDropped hidentity =>
      cases hstep' with
      | projectDropped => exact ⟨hinput, rfl⟩
      | projectRebuilt hother =>
          rw [← hhands, hidentity] at hother
          cases hother
      | kept hop | rebuilt hop => cases hop
  | projectRebuilt hother hnames hfits =>
      cases hstep' with
      | projectDropped hidentity =>
          rw [← hhands, hother] at hidentity
          cases hidentity
      | projectRebuilt _ hnames' hfits' =>
          refine ⟨.transform (Schema.eq_of_names_types ?_ ?_) hinput.traits_eq
            (Bool.and_eq_true_iff.2 ⟨hexprs, rfl⟩) hinput, rfl⟩
          · rw [NodeSupply.schema_header, NodeSupply.schema_header, hnames, hnames', hrow,
              hinput.schema_eq, adoptedNames_eq_of_beq hexprs]
          · rw [NodeSupply.schema_header, NodeSupply.schema_header, hfits.2.1, hfits'.2.1,
              Expr.map_read_eq_of_beq Expr.type_canonical hexprs]
      | kept hop | rebuilt hop => cases hop
  | kept hop | rebuilt hop => cases hop

theorem LeavesTransform.alike_writer {target : Table} {input input' inputₗ inputᵣ : Plan}
    (hrow : h.schema = h'.schema) (htraits : h.traits = h'.traits) (hbelow : Alike input input')
    (hinput : Alike inputₗ inputᵣ)
    (hstep : LeavesTransform σ s h (.writer target) input inputₗ q σ₁ s₁)
    (hstep' : LeavesTransform σ t h' (.writer target) input' inputᵣ q' σ₂ t₁) :
    Alike q q' ∧ σ₁ = σ₂ := by
  cases hstep with
  | writerKept hneeded =>
      cases hstep' with
      | writerKept => exact ⟨.transform hrow htraits BEq.rfl hbelow, rfl⟩
      | writerRebuilt hneeded' =>
          rw [hneeded] at hneeded'
          cases hneeded'
      | kept hop | rebuilt hop => cases hop
  | writerRebuilt hneeded =>
      cases hstep' with
      | writerKept hneeded' =>
          rw [hneeded] at hneeded'
          cases hneeded'
      | writerRebuilt => exact ⟨.transform hrow htraits BEq.rfl hinput, rfl⟩
      | kept hop | rebuilt hop => cases hop
  | kept hop | rebuilt hop => cases hop

theorem LeavesTransform.alike_screen {input input' inputₗ inputᵣ : Plan}
    (hrow : h.schema = h'.schema) (htraits : h.traits = h'.traits) (hbelow : Alike input input')
    (hinput : Alike inputₗ inputᵣ)
    (hstep : LeavesTransform σ s h .screen input inputₗ q σ₁ s₁)
    (hstep' : LeavesTransform σ t h' .screen input' inputᵣ q' σ₂ t₁) :
    Alike q q' ∧ σ₁ = σ₂ := by
  -- The decisions, which are the same in both walks, tell which of the three ways is taken.
  have hkept : ∀ {P : Prop}, σ.prefixNeeded = false ∨ σ.prefixedLeaves = 0 →
      σ.prefixNeeded = true → 0 < σ.prefixedLeaves → P := by
    intro P hnothing hneeded hprefixed
    rcases hnothing with hnot | hzero
    · rw [hnot] at hneeded
      cases hneeded
    · exact absurd hzero (Nat.ne_of_gt hprefixed)
  cases hstep with
  | screenKept hnothing =>
      cases hstep' with
      | screenKept => exact ⟨.transform hrow htraits BEq.rfl hbelow, rfl⟩
      | screenRebuilt hneeded hprefixed | screenRestored hneeded hprefixed =>
          exact hkept hnothing hneeded hprefixed
      | kept hop | rebuilt hop => cases hop
  | screenRebuilt hneeded hprefixed hwriter =>
      cases hstep' with
      | screenKept hnothing => exact hkept hnothing hneeded hprefixed
      | screenRebuilt => exact ⟨.transform hinput.schema_eq htraits BEq.rfl hinput, rfl⟩
      | screenRestored _ _ hwriter' =>
          rw [hwriter] at hwriter'
          cases hwriter'
      | kept hop | rebuilt hop => cases hop
  | screenRestored hneeded hprefixed hwriter _ hmany =>
      cases hstep' with
      | screenKept hnothing => exact hkept hnothing hneeded hprefixed
      | screenRebuilt _ _ hwriter' =>
          rw [hwriter] at hwriter'
          cases hwriter'
      | screenRestored _ _ _ _ hmany' =>
          rw [hrow] at hmany
          rw [hmany, hmany', hrow]
          exact ⟨.transform rfl htraits BEq.rfl
            (.transform rfl hinput.traits_eq BEq.rfl hinput), rfl⟩
      | kept hop | rebuilt hop => cases hop
  | kept hop | rebuilt hop => cases hop

theorem LeavesTransform.alike {input input' inputₗ inputᵣ : Plan}
    (hbelow : Alike (.transform h op input) (.transform h' op' input'))
    (hinput : Alike inputₗ inputᵣ) (hfits : op.Fits input.schema h.schema)
    (hfits' : op'.Fits input'.schema h'.schema)
    (hstep : LeavesTransform σ s h op input inputₗ q σ₁ s₁)
    (hstep' : LeavesTransform σ t h' op' input' inputᵣ q' σ₂ t₁) : Alike q q' ∧ σ₁ = σ₂ := by
  cases hbelow with
  | transform hrow htraits hop hbelow =>
      cases hinner : isInner op with
      | true =>
          have hinner' : isInner op' = true := (isInner_eq_of_beq hop).symm.trans hinner
          -- One node may have been kept and the other made anew.
          obtain ⟨rfl, k, rfl, hderived, hktraits⟩ := hstep.exists_remade hinner hfits
          obtain ⟨rfl, k', rfl, hderived', hktraits'⟩ := hstep'.exists_remade hinner' hfits'
          rw [hrow, hinput.schema_eq, Transform.derivedSchema_eq_of_beq hop, hderived',
            Except.ok.injEq] at hderived
          rw [← htraits, ← hktraits] at hktraits'
          exact ⟨.transform hderived.symm hktraits'.symm hop hinput, rfl⟩
      | false =>
          cases op with
          | project exprs allowDuplicates =>
              obtain ⟨exprs', rfl, hexprs⟩ := Transform.eq_project_of_beq hop
              exact hstep.alike_project hexprs hrow hinput hstep'
          | writer target =>
              obtain rfl := Transform.eq_writer_of_beq hop
              exact hstep.alike_writer hrow htraits hbelow hinput hstep'
          | screen =>
              obtain rfl := Transform.eq_screen_of_beq hop
              exact hstep.alike_screen hrow htraits hbelow hinput hstep'
          | _ => cases hinner

theorem LeavesJoin.alike {algorithm : JoinAlgorithm} {spec spec' : JoinSpec}
    {left left' right right' leftₗ leftᵣ rightₗ rightᵣ : Plan} (htraits : h.traits = h'.traits)
    (hspec : (spec == spec') = true) (hleft : Alike leftₗ leftᵣ) (hright : Alike rightₗ rightᵣ)
    (hfits : spec.Fits left.schema right.schema h.schema) (hany : h.traits.distribution = .any)
    (hfits' : spec'.Fits left'.schema right'.schema h'.schema)
    (hstep : LeavesJoin s h algorithm spec left right leftₗ rightₗ q s₁)
    (hstep' : LeavesJoin t h' algorithm spec' left' right' leftᵣ rightᵣ q' t₁) : Alike q q' := by
  obtain ⟨k, rfl, hrow, hktraits⟩ := hstep.exists_remade hfits hany
  obtain ⟨k', rfl, hrow', hktraits'⟩ := hstep'.exists_remade hfits' (htraits ▸ hany)
  refine .join ?_ ?_ hspec hleft hright
  · rw [hrow, hrow', hleft.schema_eq, hright.schema_eq, JoinSpec.joinType_eq_of_beq hspec]
  · rw [hktraits, hktraits', htraits]

/-- Walks over plans that are the same, begun with the same decisions, end with the same
decisions and with plans that are the same. -/
theorem Becomes.alike (halike : Alike p p') (hfits : p.WellFormed) (hfits' : p'.WellFormed)
    (hwalk : Becomes σ s p q σ₁ s₁) (hwalk' : Becomes σ t p' q' σ₂ t₁) :
    Alike q q' ∧ σ₁ = σ₂ := by
  -- Along the first walk; the second one is over a plan of the same shape, so it was begun at
  -- each node in the same way.
  induction hwalk generalizing t p' q' σ₂ t₁ with
  | source hstep =>
      cases halike with
      | source hrow htraits =>
          cases hwalk' with
          | source hstep' => exact hstep.alike hrow htraits hstep'
  | transform _ hstep ih =>
      obtain ⟨hnode, hinput⟩ := Plan.wellFormed_transform.1 hfits
      have hentering := entering_eq_of_alike halike
      have hself := halike
      cases halike with
      | transform _ _ _ hbelow =>
          obtain ⟨hnode', hinput'⟩ := Plan.wellFormed_transform.1 hfits'
          cases hwalk' with
          | transform hwalk' hstep' =>
              rw [← hentering] at hwalk'
              obtain ⟨hdone, rfl⟩ := ih hbelow hinput hinput' hwalk'
              exact hstep.alike hself hdone hnode hnode' hstep'
  | join _ _ hstep ihl ihr =>
      obtain ⟨⟨hnode, hany⟩, hleft, hright⟩ := Plan.wellFormed_join.1 hfits
      have hentering := entering_eq_of_alike halike
      cases halike with
      | join _ htraits hspec hlbelow hrbelow =>
          obtain ⟨⟨hnode', -⟩, hleft', hright'⟩ := Plan.wellFormed_join.1 hfits'
          cases hwalk' with
          | join hlwalk' hrwalk' hstep' =>
              rw [← hentering] at hlwalk'
              obtain ⟨hldone, rfl⟩ := ihl hlbelow hleft hleft' hlwalk'
              obtain ⟨hrdone, rfl⟩ := ihr hrbelow hright hright' hrwalk'
              exact ⟨hstep.alike htraits hspec hldone hrdone hnode hany hnode' hstep', rfl⟩

/-- Plans that are the same have the same first clash. -/
theorem firstClash?_eq_of_alike (halike : Alike p p') (σ : StarState) :
    firstClash? σ p = firstClash? σ p' := by
  have hleaves : List.Forall₂ Alike p.leaves p'.leaves :=
    List.rel_filter (fun _ _ hn => Bool.eq_iff_iff.1 hn.isLeaf_eq) halike.forall₂_preorder
  have hclash : ∀ {ids : List (Option Nat)} {leaves leaves' : List Plan},
      List.Forall₂ Alike leaves leaves' →
        (ids.zip leaves).findSome? clash? = (ids.zip leaves').findSome? clash? := by
    intro ids leaves leaves' hall
    induction hall generalizing ids with
    | nil => rfl
    | @cons leaf leaf' _ _ hleaf _ ih =>
        cases ids with
        | nil => rfl
        | cons id ids =>
            have hnames : clash? (id, leaf) = clash? (id, leaf') := by
              cases id with
              | none => rfl
              | some k => rw [clash?, clash?, Plan.fieldNames, Plan.fieldNames, hleaf.schema_eq]
            rw [List.zip_cons_cons, List.zip_cons_cons, List.findSome?_cons, List.findSome?_cons,
              hnames, ih]
  rw [firstClash?, firstClash?, nextIds_eq_of_alike halike, hclash hleaves]

/-- The pass on star columns ends in the same way on plans that are the same. -/
theorem sameOutcome_separateStars (hp : p.Constructed s) (hp' : p'.Constructed t)
    (halike : Alike p p') :
    Plan.SameOutcome (p.separateStars.run s) (p'.separateStars.run t) := by
  have hrefused : ∀ {e : PlanError}, p.separateStars.run s = .error e ↔
      p'.separateStars.run t = .error e := by
    intro e
    rw [run_separateStars_eq_error_iff_firstClash? hp,
      run_separateStars_eq_error_iff_firstClash? hp', firstClash?_eq_of_alike halike]
  cases hrun : p.separateStars.run s with
  | error e =>
      rw [hrefused.1 hrun]
      exact rfl
  | ok result =>
      obtain ⟨q, s₁⟩ := result
      cases hrun' : p'.separateStars.run t with
      | error e =>
          rw [hrefused.2 hrun'] at hrun
          cases hrun
      | ok result' =>
          obtain ⟨q', t₁⟩ := result'
          obtain ⟨σ, hwith⟩ := exists_run_separateStarsWith hrun
          obtain ⟨σ', hwith'⟩ := exists_run_separateStarsWith hrun'
          obtain ⟨hwalk, -⟩ := becomes_of_run_separateStarsWith hp hwith
          obtain ⟨hwalk', -⟩ := becomes_of_run_separateStarsWith hp' hwith'
          have hdone := (hwalk.alike halike hp.wellFormed hp'.wellFormed hwalk').1
          exact ⟨hdone.same, hdone.equal⟩

end Steps

end StarColumn

end QueryPlan
