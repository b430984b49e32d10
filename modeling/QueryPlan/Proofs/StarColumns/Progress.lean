import QueryPlan.Proofs.Plan.Yields
import QueryPlan.Proofs.StarColumns.Walk

/-!
# Steps of the walk on star columns that do not fail

`Yields R σ x Q` says that the work `x`, begun with the decisions `σ` when the nodes of the
register `R` have been made, succeeds, and that `Q` holds for what it returns and for the
decisions at its end.

On the way up a node is put over an input that has the types of the one before. An operator
finds its ordinals in it, and a projection takes over names that have been told apart, so
neither is refused. What results has the types that it had, and unless it is a node that was
there it has a new identity.
-/

namespace QueryPlan

namespace StarM

variable {R : Register} {σ : StarState} {x : StarM Plan} {f : Plan → StarM Plan}
  {Q Q' : Plan → StarState → Prop}

/-- The work succeeds, what it returns is in a later register, and the property holds for it
and for the decisions. -/
def Yields (R : Register) (σ : StarState) (x : StarM Plan) (Q : Plan → StarState → Prop) : Prop :=
  ∃ q σ' R', Runs x σ R.supply q σ' R'.supply ∧ R.Grows R' ∧ q ∈ R'.nodes ∧ Q q σ'

theorem yields_pure {q : Plan} (hmem : q ∈ R.nodes) (hq : Q q σ) : Yields R σ (pure q) Q :=
  ⟨q, σ, R, rfl, .refl R, hmem, hq⟩

theorem yields_lift {x : PlanM Plan} {P : Plan → Prop} (hx : x.Yields R P)
    (hQ : ∀ q, P q → Q q σ) : Yields R σ (liftM x) Q := by
  obtain ⟨q, R', hrun, hgrows, hmem, hq⟩ := hx
  exact ⟨q, σ, R', runs_lift_iff.2 ⟨hrun, rfl⟩, hgrows, hmem, hQ q hq⟩

theorem Yields.mono (hx : Yields R σ x Q) (hQ : ∀ q σ', Q q σ' → Q' q σ') : Yields R σ x Q' := by
  obtain ⟨q, σ', R', hrun, hgrows, hmem, hq⟩ := hx
  exact ⟨q, σ', R', hrun, hgrows, hmem, hQ q σ' hq⟩

theorem Runs.bind_yields {q : Plan} {σ' : StarState} {R' : Register}
    (hx : Runs x σ R.supply q σ' R'.supply) (hgrows : R.Grows R') (hf : Yields R' σ' (f q) Q) :
    Yields R σ (x >>= f) Q := by
  obtain ⟨r, σ₂, R₂, hrun, hgrows', hmem, hr⟩ := hf
  exact ⟨r, σ₂, R₂, runs_bind_iff.2 ⟨q, σ', R'.supply, hx, hrun⟩, hgrows.trans hgrows', hmem, hr⟩

theorem Yields.bind (hx : Yields R σ x Q)
    (hf : ∀ q σ' R', R.Grows R' → q ∈ R'.nodes → Q q σ' → Yields R' σ' (f q) Q') :
    Yields R σ (x >>= f) Q' := by
  obtain ⟨q, σ₁, R₁, hrun, hgrows, hmem, hq⟩ := hx
  exact hrun.bind_yields hgrows (hf q σ₁ R₁ hgrows hmem hq)

theorem yields_get_bind_iff {f : StarState → StarM Plan} :
    Yields R σ (get >>= f) Q ↔ Yields R σ (f σ) Q :=
  Iff.rfl

theorem yields_set_bind_iff {τ : StarState} :
    Yields R σ ((set τ : StarM PUnit) >>= fun _ => x) Q ↔ Yields R τ x Q :=
  Iff.rfl

end StarM

namespace StarColumn

open StarM

variable {R : Register} {σ : StarState} {p input input' : Plan} {h : Header}
  {Q : Plan → StarState → Prop}

/-- Entering a node never fails. -/
theorem runs_enter (p : Plan) (σ : StarState) (s : NodeSupply) :
    Runs (enter p) σ s () (σ.entering p) s := by
  rw [enter, StarState.entering]
  cases hneed : showsNeed p with
  | true =>
      rw [if_pos rfl, Bool.or_true]
      rfl
  | false =>
      rw [if_neg Bool.false_ne_true, Bool.or_false]
      rfl

theorem yields_enter_bind {x : StarM Plan} (hx : Yields R (σ.entering p) x Q) :
    Yields R σ (enter p >>= fun _ => x) Q := by
  obtain ⟨q, σ', R', hrun, hrest⟩ := hx
  exact ⟨q, σ', R', runs_bind_iff.2 ⟨(), σ.entering p, R.supply, runs_enter p σ _, hrun⟩, hrest⟩

theorem yields_leave_of_isInner {op : Transform} (hop : isInner op = true)
    (hp : .transform h op input ∈ R.nodes) (hmem : input' ∈ R.nodes)
    (hfits : op.Fits input.schema h.schema) (htypes : input'.schema.types = input.schema.types) :
    Yields R σ (leave (.transform h op input) [input']) fun q σ' => σ' = σ ∧
      q.schema.types = h.schema.types ∧
        ((input' = input ∧ q = .transform h op input) ∨
          (input' ≠ input ∧ R.supply.next ≤ q.id.index)) := by
  obtain ⟨schema, hderived, -, htypes'⟩ := hfits.exists_derivedSchema htypes
  have hkeep := Plan.yields_keepOver hp (List.forall_mem_singleton.2 hmem)
    (Q := fun q => q.schema.types = h.schema.types)
    ⟨_, Plan.run_withInputs_transform_eq_ok_iff.2 ⟨schema, hderived, rfl, rfl⟩, rfl, rfl, htypes'⟩
  have hleave : leave (.transform h op input) [input'] =
      liftM ((Plan.transform h op input).keepOver [input']) := by
    cases op <;> first | rfl | cases hop
  rw [hleave]
  refine yields_lift hkeep ?_
  rintro q (⟨hsame, rfl⟩ | ⟨hother, hnew, hq⟩)
  · exact ⟨rfl, rfl, Or.inl ⟨List.singleton_inj.1 hsame, rfl⟩⟩
  · exact ⟨rfl, hq, Or.inr ⟨fun heq => hother (congrArg (fun i => [i]) heq), hnew⟩⟩

theorem yields_leave_join {algorithm : JoinAlgorithm} {spec : JoinSpec}
    {left right left' right' : Plan} (hp : .join h algorithm spec left right ∈ R.nodes)
    (hleft : left' ∈ R.nodes) (hright : right' ∈ R.nodes)
    (hfits : spec.Fits left.schema right.schema h.schema)
    (hltypes : left'.schema.types = left.schema.types)
    (hrtypes : right'.schema.types = right.schema.types) :
    Yields R σ (leave (.join h algorithm spec left right) [left', right']) fun q σ' => σ' = σ ∧
      q.schema.types = h.schema.types ∧
        (((left' = left ∧ right' = right) ∧ q = .join h algorithm spec left right) ∨
          (¬ (left' = left ∧ right' = right) ∧ R.supply.next ≤ q.id.index)) := by
  have hmem : ∀ i ∈ [left', right'], i ∈ R.nodes := by simp [hleft, hright]
  have hkeep := Plan.yields_keepOver hp hmem (Q := fun q => q.schema.types = h.schema.types)
    ⟨_, Plan.run_withInputs_join_eq_ok_iff.2 ⟨rfl, rfl⟩, rfl, rfl, (hfits.over hltypes hrtypes).2⟩
  refine yields_lift hkeep ?_
  rintro q (⟨hsame, rfl⟩ | ⟨hother, hnew, hq⟩)
  · rw [Plan.inputs, List.cons.injEq, List.singleton_inj] at hsame
    exact ⟨rfl, rfl, Or.inl ⟨hsame, rfl⟩⟩
  · refine ⟨rfl, hq, Or.inr ⟨fun hsame => hother ?_, hnew⟩⟩
    rw [hsame.1, hsame.2, Plan.inputs]

/-- A leaf is kept, or it gets its prefix if the names under it are not alike. -/
theorem yields_leave_leaf {op : Source} (hp : Plan.source h op ∈ R.nodes)
    (hdistinct : σ.prefixNeeded = true → inRow h.schema = true →
      Names.distinct (withPrefixes σ.prefixedLeaves h.schema.names) = true) :
    Yields R σ (leave (.source h op) []) fun q _ => q.schema.types = h.schema.types := by
  rw [leave, leaveLeaf, yields_get_bind_iff, Plan.schema, Plan.header]
  by_cases hboth : (σ.prefixNeeded && inRow h.schema) = true
  · obtain ⟨hneeded, hrow⟩ := Bool.and_eq_true_iff.1 hboth
    have hlength : (withPrefixes σ.prefixedLeaves h.schema.names).length =
        (h.schema.identity.map Expr.type).length := by
      simp [withPrefixes]
    have hrun : ((Plan.source h op).project h.schema.identity
        (withPrefixes σ.prefixedLeaves h.schema.names)).run R.supply = .ok (_, R.supply.rest) :=
      Plan.run_projectWith_eq_ok_iff.2 ⟨fun e => Schema.lt_width_of_mem_identity,
        fun _ => hdistinct hneeded hrow, by rw [hlength, List.length_map], rfl, rfl⟩
    rw [if_pos hboth, yields_set_bind_iff]
    refine yields_lift (P := fun q => q.schema.types = h.schema.types)
      (PlanM.yields_add hrun rfl (List.forall_mem_singleton.2 hp) ?_) fun q hq => hq
    exact (Schema.types_ofNamesTypes hlength).trans (Schema.map_type_identity _)
  · rw [if_neg hboth]
    cases isMixedRow (.source h op) with
    | true => exact ⟨_, _, R, rfl, .refl R, hp, rfl⟩
    | false => exact ⟨_, _, R, rfl, .refl R, hp, rfl⟩

theorem yields_leave_writer {target : Table} (hp : .transform h (.writer target) input ∈ R.nodes)
    (hmem : input' ∈ R.nodes) :
    Yields R σ (leave (.transform h (.writer target) input) [input']) fun q _ =>
      q.schema.types = h.schema.types := by
  rw [leave, leaveWriter, yields_get_bind_iff]
  cases σ.prefixNeeded with
  | false => exact yields_pure hp rfl
  | true =>
      have hrun : ((Plan.transform h (.writer target) input).withInputs [input']).run R.supply =
          .ok (_, R.supply.rest) :=
        Plan.run_withInputs_transform_eq_ok_iff.2 ⟨h.schema, rfl, rfl, rfl⟩
      rw [if_pos rfl, yields_set_bind_iff]
      exact yields_lift (P := fun q => q.schema.types = h.schema.types)
        (PlanM.yields_add hrun rfl (List.forall_mem_singleton.2 hmem) rfl) fun q hq => hq

/-- The screen is kept, or it is put over its new input, with or without a projection that
restores the names. A row of at most one field has no two names alike. -/
theorem yields_leave_screen (hp : .transform h .screen input ∈ R.nodes) (hmem : input' ∈ R.nodes)
    (htypes : input'.schema.types = h.schema.types) :
    Yields R σ (leave (.transform h .screen input) [input']) fun q _ =>
      q.schema.types = h.schema.types := by
  have hover : ∀ {R' : Register} {i : Plan}, i ∈ R'.nodes → i.schema.types = h.schema.types →
      ((Plan.transform h .screen input).withInputs [i]).Yields R' fun q =>
        q.schema.types = h.schema.types := by
    intro R' i hi hrow
    have hrun : ((Plan.transform h .screen input).withInputs [i]).run R'.supply =
        .ok (_, R'.supply.rest) :=
      Plan.run_withInputs_transform_eq_ok_iff.2 ⟨i.schema, rfl, rfl, rfl⟩
    exact PlanM.yields_add hrun rfl (List.forall_mem_singleton.2 hi) hrow
  rw [leave, leaveScreen, yields_get_bind_iff]
  by_cases hneeded : (σ.prefixNeeded && decide (0 < σ.prefixedLeaves)) = true
  · rw [if_pos hneeded]
    cases σ.writerRestores with
    | true => exact yields_lift (hover hmem htypes) fun q hq => hq
    | false =>
        have hwidth : input'.width = h.schema.width := Schema.width_eq_of_types_eq htypes
        have hnames : decide (1 < h.schema.width) = false →
            Names.distinct h.schema.names = true := by
          intro hsingle
          rw [decide_eq_false_iff_not, Nat.not_lt, ← Schema.length_names] at hsingle
          exact Names.distinct_of_length_le_one hsingle
        have hordinals : ∀ e ∈ h.schema.identity, ∀ i ∈ e.ordinals, i < input'.width := by
          rw [hwidth]
          exact fun e => Schema.lt_width_of_mem_identity
        have hlength : h.schema.identity.length = h.schema.names.length := by
          rw [Schema.length_identity, Schema.length_names]
        have hrun : (Plan.projectWith (1 < h.schema.width) input' h.schema.identity
            h.schema.names).run R.supply = .ok (_, R.supply.rest) :=
          Plan.run_projectWith_eq_ok_iff.2 ⟨hordinals, hnames, hlength, rfl, rfl⟩
        have hrestored := PlanM.yields_add (Q := fun q => q.schema.types = h.schema.types) hrun rfl
          (List.forall_mem_singleton.2 hmem) (by
            rw [Plan.schema_transform, NodeSupply.schema_header, Schema.map_type_identity,
              Schema.ofNamesTypes_self])
        rw [if_neg Bool.false_ne_true]
        refine (yields_lift (Q := fun q _ => q.schema.types = h.schema.types) hrestored
          fun q hq => hq).bind ?_
        intro q σ' R' _ hq hrow
        exact yields_lift (hover hq hrow) fun q hq => hq
  · rw [if_neg hneeded]
    exact yields_pure hp rfl

/-- A projection is left out or made anew. -/
theorem yields_leave_project {exprs : List Expr} {allowDuplicates : Bool}
    (hmem : input' ∈ R.nodes)
    (hfits : (Transform.project exprs allowDuplicates).Fits input.schema h.schema)
    (htypes : input'.schema.types = input.schema.types) :
    Yields R σ (leave (.transform h (.project exprs allowDuplicates) input) [input'])
      fun q σ' => σ' = σ ∧ q.schema.types = h.schema.types ∧
        (q = input' ∨ R.supply.next ≤ q.id.index) := by
  obtain ⟨hordinals, hrow, -⟩ := hfits
  have hwidth : input'.width = input.schema.width := Schema.width_eq_of_types_eq htypes
  have hlength : (adoptedNames input'.schema exprs h.schema.fields).length = exprs.length := by
    have hfields : h.schema.fields.length = exprs.length := by
      rw [← List.length_map Expr.type, ← hrow, Schema.length_types]
      rfl
    rw [adoptedNames, Names.length_disambiguate, inheritedNames, List.length_zipWith, hfields,
      Nat.min_self]
  have hrun : (input'.project exprs (adoptedNames input'.schema exprs h.schema.fields)).run
      R.supply = .ok (_, R.supply.rest) := Plan.run_projectWith_eq_ok_iff.2
    ⟨hwidth ▸ hordinals, fun _ => Names.distinct_disambiguate _, hlength.symm, rfl, rfl⟩
  have hrebuilt := PlanM.yields_add (Q := (· = _)) hrun rfl (List.forall_mem_singleton.2 hmem) rfl
  refine (yields_lift (Q := fun q σ' => σ' = σ ∧ q = _) hrebuilt fun q hq => ⟨rfl, hq⟩).bind ?_
  rintro q σ' R' hgrows hq ⟨rfl, rfl⟩
  by_cases hidentity : Plan.handsOn input'.schema.types exprs = true
  · rw [Plan.isIdentityProjection_project, if_pos hidentity]
    refine yields_pure (hgrows.nodes_subset hmem) ⟨rfl, ?_, Or.inl rfl⟩
    rw [hrow, Plan.handsOn_iff.1 hidentity, Schema.map_type_identity]
  · rw [Plan.isIdentityProjection_project, if_neg hidentity]
    refine yields_pure hq ⟨rfl, ?_, Or.inr (Nat.le_refl _)⟩
    rw [hrow]
    exact Schema.types_ofNamesTypes (hlength.trans (List.length_map _).symm)

end StarColumn

end QueryPlan
