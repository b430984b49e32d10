import QueryPlan.Pass.JoinNames
import QueryPlan.Proofs.JoinNames.Insertion
import QueryPlan.Proofs.Plan.Construction

/-!
# What the walk on join inputs makes of a plan

The walk never fails on a well-formed plan, and what it returns is the plan with its joins
aligned. On the way up a node is put over inputs that show the rows they showed before, so
it keeps its own row, and a join then finds the names of its inputs in it. The projections
below joins are all that is new, and without them the plan is the one that was given.
-/

namespace QueryPlan

namespace Plan

open PlanM

variable {R : Register} {p q input : Plan} {h : Header}

/-- The input is aligned if its range lies in the row and the names there may be given to a
projection. Names that the input has already are not given to one. -/
theorem yields_alignedInput {offset : Nat} (hinput : input ∈ R.nodes)
    (hstop : offset + input.width ≤ p.width)
    (hdistinct : input.fieldNames ≠ p.schema.namesAt offset input.width →
      Names.distinct (p.schema.namesAt offset input.width) = true) :
    Yields R (p.alignedInput offset input) fun q =>
      Renamed (p.schema.namesAt offset input.width) input q ∧ SelfOrNew R.supply input q := by
  rw [alignedInput_of_le hstop]
  by_cases hnames : input.fieldNames = p.schema.namesAt offset input.width
  · rw [if_pos (beq_iff_eq.2 hnames.symm)]
    exact yields_pure hinput ⟨.kept hnames, Or.inl rfl⟩
  · have hne : ¬ (p.schema.namesAt offset input.width == input.fieldNames) = true := by
      rw [beq_iff_eq]
      exact fun heq => hnames heq.symm
    have hlength : input.schema.identity.length =
        (p.schema.namesAt offset input.width).length := by
      rw [Schema.length_identity, Schema.length_namesAt hstop]
      rfl
    rw [if_neg hne]
    refine yields_add (run_projectWith_eq_ok_iff.2 ⟨fun e => Schema.lt_width_of_mem_identity,
      fun _ => hdistinct hnames, hlength, rfl, rfl⟩) rfl (List.forall_mem_singleton.2 hinput) ?_
    exact ⟨.renamed hnames (hdistinct hnames) (by simp) rfl, Or.inr (Nat.le_refl _)⟩

section Join

variable {algorithm : JoinAlgorithm} {spec : JoinSpec} {left right : Plan}

theorem yields_alignedInput_left (hleft : left ∈ R.nodes)
    (hfits : spec.Fits left.schema right.schema h.schema) :
    Yields R ((join h algorithm spec left right).alignedInput 0 left) fun q =>
      Renamed (h.schema.namesAt 0 left.width) left q ∧ SelfOrNew R.supply left q :=
  yields_alignedInput hleft hfits.left_le hfits.distinct_left

theorem yields_alignedInput_right (hright : right ∈ R.nodes)
    (hfits : spec.Fits left.schema right.schema h.schema) :
    Yields R (if spec.joinType.emitsRight then
        (join h algorithm spec left right).alignedInput left.width right else pure right) fun q =>
      Renamed (spec.rightNames h.schema left right) right q ∧ SelfOrNew R.supply right q := by
  cases hemits : spec.joinType.emitsRight with
  | true =>
      rw [if_pos rfl, JoinSpec.rightNames, if_pos hemits]
      exact yields_alignedInput hright (hfits.right_le hemits) fun _ =>
        Schema.distinct_namesAt (hfits.distinct_names hemits)
  | false =>
      rw [if_neg Bool.false_ne_true, JoinSpec.rightNames, hemits, if_neg Bool.false_ne_true]
      exact yields_pure hright ⟨.kept rfl, Or.inl rfl⟩

theorem alignJoin_join : (join h algorithm spec left right).alignJoin =
    (join h algorithm spec left right).alignedInput 0 left >>= fun left' =>
      (if spec.joinType.emitsRight then
        (join h algorithm spec left right).alignedInput left.width right else pure right) >>=
      fun right' => (join h algorithm spec left right).keepOver [left', right'] := by
  rw [alignJoin]
  cases spec.joinType.emitsRight <;> rfl

theorem yields_alignJoin (hp : join h algorithm spec left right ∈ R.nodes)
    (hfits : spec.Fits left.schema right.schema h.schema)
    (hany : h.traits.distribution = .any) :
    Yields R (join h algorithm spec left right).alignJoin fun q =>
      ∃ h' left' right' t, q = .join h' algorithm spec left' right' ∧
        AlignedInputs R.supply t h.schema spec left right left' right' ∧
        h'.schema = h.schema ∧ h'.traits = h.traits ∧
        SelfOrNew R.supply (.join h algorithm spec left right) q := by
  have hleft : left ∈ R.nodes := R.input_mem _ hp left (by simp [inputs])
  have hright : right ∈ R.nodes := R.input_mem _ hp right (by simp [inputs])
  rw [alignJoin_join]
  refine (yields_alignedInput_left hleft hfits).bind fun left' R₁ hgrows₁ hleft' hl => ?_
  obtain ⟨hl, hlnew⟩ := hl
  refine (yields_alignedInput_right (hgrows₁.nodes_subset hright) hfits).bind
    fun right' R₂ hgrows₂ hright' hr => ?_
  obtain ⟨hr, hrnew⟩ := hr
  obtain ⟨-, hltypes, hlnames⟩ := Renamed.left_eq hfits rfl hl
  obtain ⟨-, hrtypes, hrnames⟩ := Renamed.right_eq hfits rfl hr
  have hrow := hfits.join_eq hltypes hrtypes hlnames hrnames
  refine (yields_keepOver_join (hgrows₂.nodes_subset (hgrows₁.nodes_subset hp))
    (hgrows₂.nodes_subset hleft') hright' hrow hany).mono ?_
  rintro q ⟨⟨h', rfl, hschema, htraits⟩, hnew⟩
  exact ⟨h', left', right', R₁.supply, rfl,
    ⟨hl, hr, hlnew, R₁.id_lt _ hleft', hrnew, hgrows₁.next_le⟩, hschema, htraits,
    hnew.mono (hgrows₁.trans hgrows₂).next_le⟩

end Join

/-- A join that has its inputs under the names of its row is the join of the plan before with
its inputs aligned. -/
theorem AlignedInputs.alignedFrom_join {s t : NodeSupply} {h' h'' : Header}
    {algorithm : JoinAlgorithm} {spec : JoinSpec}
    {left left' left'' right right' right'' : Plan}
    (haligned : AlignedInputs s t h'.schema spec left' right' left'' right'')
    (hl : AlignedFrom left left') (hr : AlignedFrom right right') (hrow : h'.schema = h.schema)
    (hschema : h''.schema = h.schema) (htraits : h''.traits = h.traits) :
    AlignedFrom (.join h algorithm spec left right) (.join h'' algorithm spec left'' right'') := by
  have hwidth : left'.width = left.width := congrArg Schema.width hl.schema_eq
  have hnames : spec.rightNames h'.schema left' right' = spec.rightNames h.schema left right := by
    simp only [JoinSpec.rightNames, hrow, width, fieldNames, hl.schema_eq, hr.schema_eq]
  have hl' := haligned.left_renamed
  have hr' := haligned.right_renamed
  rw [hrow, hwidth] at hl'
  rw [hnames] at hr'
  exact .join hl hr hl' hr' hschema htraits

theorem alignJoins_transform {op : Transform} :
    (transform h op input).alignJoins = input.alignJoins >>= fun input' =>
      (transform h op input).keepOver [input'] >>= alignJoin := rfl

theorem alignJoins_join {algorithm : JoinAlgorithm} {spec : JoinSpec} {left right : Plan} :
    (join h algorithm spec left right).alignJoins = left.alignJoins >>= fun left' =>
      right.alignJoins >>= fun right' =>
        (join h algorithm spec left right).keepOver [left', right'] >>= alignJoin := rfl

/-- The walk on join inputs does not fail on a well-formed plan. It aligns the joins, and it
does nothing else than insert projections below them. -/
theorem yields_alignJoins_inserts (hp : p ∈ R.nodes) (hfits : p.WellFormed) :
    Yields R p.alignJoins fun q => AlignedFrom p q ∧ ∃ ids, Inserts R.supply p q ids := by
  induction p generalizing R with
  | source h op => exact yields_pure hp ⟨.source, [], .source⟩
  | transform h op input ih =>
      obtain ⟨hnode, hinput⟩ := wellFormed_transform.1 hfits
      have hmem := R.input_mem _ hp input (by simp [inputs])
      rw [alignJoins_transform]
      refine (ih hmem hinput).bind fun input' R₁ hgrows hmem' hdone => ?_
      obtain ⟨haligned, ids, hin⟩ := hdone
      refine (yields_keepOver_transform (hgrows.nodes_subset hp) hmem' hnode
        haligned.schema_eq).bind ?_
      rintro q R₂ - hq ⟨⟨h', rfl, hrow, htraits⟩, hnew⟩
      exact yields_pure hq ⟨.transform haligned hrow htraits, ids,
        .transform hin hq hrow htraits (hnew.mono hgrows.next_le)⟩
  | join h algorithm spec left right ihl ihr =>
      obtain ⟨⟨hnode, hany⟩, hleft, hright⟩ := wellFormed_join.1 hfits
      have hlmem := R.input_mem _ hp left (by simp [inputs])
      have hrmem := R.input_mem _ hp right (by simp [inputs])
      rw [alignJoins_join]
      refine (ihl hlmem hleft).bind fun left' R₁ hgrows₁ hleft' hldone => ?_
      obtain ⟨hl, ids, hlin⟩ := hldone
      refine (ihr (hgrows₁.nodes_subset hrmem) hright).bind
        fun right' R₂ hgrows₂ hright' hrdone => ?_
      obtain ⟨hr, ids', hrin⟩ := hrdone
      have hp₂ := hgrows₂.nodes_subset (hgrows₁.nodes_subset hp)
      -- The rows of the inputs are what they were, so the row of the join is, too.
      have hrow : Schema.join left'.schema right'.schema spec.joinType = h.schema := by
        rw [hl.schema_eq, hr.schema_eq, hnode.2.2]
      refine (yields_keepOver_join hp₂ (hgrows₂.nodes_subset hleft') hright' hrow hany).bind ?_
      rintro q R₃ hgrows₃ hq ⟨⟨h₃, rfl, hschema, htraits⟩, hnew⟩
      rw [← hl.schema_eq, ← hr.schema_eq, ← hschema] at hnode
      obtain ⟨q, R₄, hrun, hgrows₄, hq', h', left'', right'', t, rfl, haligned, hschema',
        htraits', hnew'⟩ := yields_alignJoin hq hnode (htraits ▸ hany)
      refine ⟨_, R₄, hrun, hgrows₄, hq', ?_, ?_⟩
      · exact haligned.alignedFrom_join hl hr hschema (hschema'.trans hschema)
          (htraits'.trans htraits)
      · have hbefore : R₁.supply.next ≤ R₃.supply.next := (hgrows₂.trans hgrows₃).next_le
        obtain ⟨idsₗ, idsᵣ, hlin', hrin', hlr, hrl⟩ := hlin.separate hrin haligned
          (fun n hn => R.id_lt n (R.preorder_subset hrmem hn))
          (fun n hn => R₁.id_lt n (R₁.preorder_subset hleft' hn))
          (fun n hn => Nat.lt_of_lt_of_le (R₂.id_lt n (R₂.preorder_subset hright' hn))
            hgrows₃.next_le) hgrows₁.next_le hbefore
        refine ⟨idsₗ ++ idsᵣ, .join hlin' hrin' hlr hrl hq' (hschema'.trans hschema)
          (htraits'.trans htraits) ?_⟩
        rcases hnew' with heq | hnew'
        · rw [heq]
          exact hnew.mono (hgrows₁.trans hgrows₂).next_le
        · exact Or.inr (Nat.le_trans (Nat.le_trans hgrows₁.next_le hbefore) hnew')

/-- The walk on join inputs does not fail on a well-formed plan, and it aligns its joins. -/
theorem yields_alignJoins (hp : p ∈ R.nodes) (hfits : p.WellFormed) :
    Yields R p.alignJoins (AlignedFrom p) :=
  (yields_alignJoins_inserts hp hfits).mono fun _ hq => hq.1

/-- The names of the join inputs of a constructed plan can always be made to agree with the
joins. In the result they agree, and the plan is there again when the projections are taken out
that were inserted. -/
theorem exists_run_alignJoins {s : NodeSupply} (hp : p.Constructed s) :
    ∃ q s' ids, p.alignJoins.run s = .ok (q, s') ∧ (∀ n ∈ q.preorder, n.IsAligned) ∧
      Inserts s p q ids := by
  obtain ⟨R, rfl, hmem⟩ := hp.exists_register
  obtain ⟨q, R', hrun, -, -, haligned, ids, hin⟩ := yields_alignJoins_inserts hmem hp.wellFormed
  exact ⟨q, R'.supply, ids, hrun, (haligned.wellFormed hp.wellFormed).2, hin⟩

end Plan

theorem SwappedStars.exists_run_alignJoins_shown :
    ∃ q s' ids, shown.alignJoins.run ⟨5⟩ = .ok (q, s') ∧ (∀ n ∈ q.preorder, n.IsAligned) ∧
      Plan.Inserts ⟨5⟩ shown q ids :=
  Plan.exists_run_alignJoins constructed_shown

end QueryPlan
