import QueryPlan.Proofs.JoinNames.Conditions
import QueryPlan.Proofs.Names.Numbering

/-!
# When the names of join inputs agree already

A walk over a plan whose joins are all aligned finds nothing to do at any node, so it makes no
node and returns the plan it was given. What the walk returns has aligned joins, so a second walk
always finds this.

In a well-formed plan a join is aligned exactly if the names of its two inputs, taken together,
need not be told apart. If some join of a plan is not aligned, then the walk returns a plan in
which all are. That is another node, and as nodes can be told by their identities it has another
identity, however far below the root the join is.
-/

namespace QueryPlan

namespace Plan

open PlanM

variable {p q input left right : Plan} {h : Header} {algorithm : JoinAlgorithm} {spec : JoinSpec}
  {s : NodeSupply}

/-- The names of the two inputs, taken together, are told apart, if the topmost node is a join
that emits right rows. -/
def InputsDistinct : Plan → Prop
  | .join _ _ spec left right =>
    spec.joinType ≠ .semi → spec.joinType ≠ .anti →
      Names.distinct (left.fieldNames ++ right.fieldNames) = true
  | _ => True

theorem keepOver_self (p : Plan) : p.keepOver p.inputs = pure p := by
  rw [keepOver, if_pos p.hasInputs_self]

/-! ### A plan with aligned joins -/

/-- An input that has the names of a range lies within it. -/
theorem width_le_of_fieldNames_eq {offset : Nat}
    (hnames : input.fieldNames = p.schema.namesAt offset input.width) :
    input.width ≤ p.width - offset := by
  have hlength := congrArg List.length hnames
  rw [fieldNames, Schema.length_names, Schema.namesAt, List.length_take, List.length_drop,
    Schema.length_names] at hlength
  rw [width, hlength]
  exact Nat.min_le_right _ _

theorem alignedInput_of_fieldNames_eq {offset : Nat} (hoffset : offset ≤ p.width)
    (hnames : input.fieldNames = p.schema.namesAt offset input.width) :
    p.alignedInput offset input = pure input := by
  have hstop : offset + input.width ≤ p.width := by
    have hwidth := width_le_of_fieldNames_eq hnames
    omega
  rw [alignedInput_of_le hstop]
  exact if_pos (beq_iff_eq.2 hnames.symm)

/-- Nothing is done at an aligned node. -/
theorem alignJoin_of_isAligned (hp : p.IsAligned) : p.alignJoin = pure p := by
  cases p with
  | source h op => rfl
  | transform h op input => rfl
  | join h algorithm spec left right =>
      obtain ⟨hleft, hright⟩ := hp
      have hwidth : left.width ≤ (join h algorithm spec left right).width :=
        width_le_of_fieldNames_eq (p := join h algorithm spec left right) hleft
      rw [alignJoin_join, alignedInput_of_fieldNames_eq (Nat.zero_le _) hleft, pure_bind]
      cases hemits : spec.joinType.emitsRight with
      | true =>
          rw [if_pos rfl, alignedInput_of_fieldNames_eq hwidth (hright hemits), pure_bind]
          exact keepOver_self _
      | false =>
          rw [if_neg Bool.false_ne_true, pure_bind]
          exact keepOver_self _

/-- A plan whose joins are aligned is returned as it is, and no node is made. -/
theorem alignJoins_of_isAligned (hp : p.Everywhere IsAligned) : p.alignJoins = pure p := by
  induction p with
  | source h op => rfl
  | transform h op input ih =>
      rw [alignJoins_transform, ih (everywhere_transform.1 hp).2, pure_bind]
      exact congrArg (· >>= alignJoin) (keepOver_self (transform h op input))
  | join h algorithm spec left right ihl ihr =>
      obtain ⟨hself, hleft, hright⟩ := everywhere_join.1 hp
      have hkeep : (join h algorithm spec left right).keepOver [left, right] =
          pure (join h algorithm spec left right) := keepOver_self _
      rw [alignJoins_join, ihl hleft, pure_bind, ihr hright, pure_bind, hkeep, pure_bind]
      exact alignJoin_of_isAligned hself

/-! ### Which joins are aligned -/

theorem emitsRight_iff {joinType : JoinType} :
    joinType.emitsRight = true ↔ joinType ≠ .semi ∧ joinType ≠ .anti := by
  cases joinType <;> decide

/-- The inputs of a join that emits right rows have its names if theirs need not be told
apart. -/
theorem isAligned_iff_of_emitsRight (hfits : spec.Fits left.schema right.schema h.schema)
    (hemits : spec.joinType.emitsRight = true) :
    (join h algorithm spec left right).IsAligned ↔
      Names.distinct (left.fieldNames ++ right.fieldNames) = true := by
  have hrow : h.schema.names = Names.disambiguate (left.fieldNames ++ right.fieldNames) := by
    rw [hfits.2.2, Schema.names_join, if_pos hemits]
    rfl
  have hsplit := Schema.namesAt_append (hfits.width_eq hemits)
  rw [← Names.disambiguate_eq_self_iff, ← hrow]
  constructor
  · exact fun haligned => (haligned.fieldNames_append hfits hemits).symm
  · intro hnames
    have hparts : h.schema.namesAt 0 left.width ++ h.schema.namesAt left.width right.width =
        left.fieldNames ++ right.fieldNames := hsplit.trans hnames
    have hlength : (h.schema.namesAt 0 left.width).length = left.fieldNames.length := by
      have hstop : 0 + left.width ≤ h.schema.width := by
        rw [hfits.width_eq hemits, Nat.zero_add]
        exact Nat.le_add_right _ _
      rw [Schema.length_namesAt hstop, fieldNames, Schema.length_names]
      rfl
    obtain ⟨hleft, hright⟩ := List.append_inj hparts hlength
    exact ⟨hleft.symm, fun _ => hright.symm⟩

/-- A join that emits left rows only has the row of its left input. -/
theorem isAligned_of_not_emitsRight (hfits : spec.Fits left.schema right.schema h.schema)
    (hemits : spec.joinType.emitsRight = false) :
    (join h algorithm spec left right).IsAligned := by
  refine ⟨?_, fun htrue => absurd htrue (by rw [hemits]; exact Bool.false_ne_true)⟩
  rw [hfits.eq_left hemits]
  exact Schema.namesAt_all.symm

theorem isAligned_iff_inputsDistinct (hp : p.RowFits) : p.IsAligned ↔ p.InputsDistinct := by
  cases p with
  | source h op => exact Iff.rfl
  | transform h op input => exact Iff.rfl
  | join h algorithm spec left right =>
      cases hemits : spec.joinType.emitsRight with
      | true =>
          obtain ⟨hsemi, hanti⟩ := emitsRight_iff.1 hemits
          rw [isAligned_iff_of_emitsRight hp.1 hemits]
          exact ⟨fun hdistinct _ _ => hdistinct, fun hdistinct => hdistinct hsemi hanti⟩
      | false =>
          have hnot : ¬ (spec.joinType ≠ .semi ∧ spec.joinType ≠ .anti) := by
            rw [← emitsRight_iff, hemits]
            exact Bool.false_ne_true
          exact iff_of_true (isAligned_of_not_emitsRight hp.1 hemits) fun hsemi hanti =>
            absurd ⟨hsemi, hanti⟩ hnot

/-- The names of the join inputs of a constructed plan are made to agree with the joins by
returning the very plan, without any node being made, exactly if no join that emits right rows has
inputs with names that are alike. What was returned is always returned as it is when this is done
again. -/
theorem exists_run_alignJoins_stable {p : Plan} {s : NodeSupply} (hp : p.Constructed s) :
    ∃ q s', p.alignJoins.run s = .ok (q, s') ∧
      (q.id = p.id ↔ p.Everywhere InputsDistinct) ∧
      (p.Everywhere InputsDistinct → q = p ∧ s' = s) ∧
      ∀ t, q.alignJoins.run t = .ok (q, t) := by
  have hcondition : p.Everywhere IsAligned ↔ p.Everywhere InputsDistinct :=
    forall₂_congr fun n hn => isAligned_iff_inputsDistinct (hp.wellFormed n hn)
  obtain ⟨R, rfl, hmem⟩ := hp.exists_register
  obtain ⟨q, R', hrun, hgrows, hq, hfrom⟩ := yields_alignJoins hmem hp.wellFormed
  have haligned := (hfrom.wellFormed hp.wellFormed).2
  have hkept : p.Everywhere IsAligned → q = p ∧ R'.supply = R.supply := by
    intro hall
    rw [alignJoins_of_isAligned hall] at hrun
    exact run_pure_eq_ok_iff.1 hrun
  refine ⟨q, R'.supply, hrun, ⟨fun hid => ?_, fun hall => ?_⟩,
    fun hall => hkept (hcondition.2 hall), fun t => ?_⟩
  · have heq : q = p := R'.eq_of_id_eq q hq p (hgrows.nodes_subset hmem) hid
    exact hcondition.1 (heq ▸ haligned)
  · rw [(hkept (hcondition.2 hall)).1]
  · rw [alignJoins_of_isAligned haligned]
    rfl

end Plan

/-! The two tables joined and shown, and the rows of the first one that have a match. -/

namespace TwinTables

def shown : Plan := .transform ⟨⟨3⟩, joinedRow, .distributed .single⟩ .screen joined

def matchedOnId : JoinSpec := { onId with joinType := .semi }

def matched : Plan :=
  .join ⟨⟨2⟩, row, .unknown⟩ .hash matchedOnId (table 0 "a") (table 1 "b")

theorem constructed_shown : shown.Constructed ⟨4⟩ :=
  ⟨_, built_joined.over (.screen joined) rfl rfl, List.mem_cons_self⟩

theorem constructed_matched : matched.Constructed ⟨3⟩ := by
  have hrun : (Plan.joinWith .hash matchedOnId (table 0 "a") (table 1 "b")).run ⟨2⟩ =
      .ok (matched, ⟨3⟩) :=
    Plan.run_joinWith_of_join_eq (by decide) (by decide) rfl
  exact ⟨_, built_tables.join (by simp) (by simp) hrun, List.mem_cons_self⟩

/-- The names of the join differ from those of its right input, so what is shown is made anew and
then stays. The matches show the names of the first table and stay from the start. -/
theorem exists_run_alignJoins_stable_shown :
    (∃ q s', shown.alignJoins.run ⟨4⟩ = .ok (q, s') ∧ q.id ≠ shown.id ∧
        ∀ t, q.alignJoins.run t = .ok (q, t)) ∧
      matched.alignJoins.run ⟨3⟩ = .ok (matched, ⟨3⟩) := by
  obtain ⟨q, s', hrun, hiff, -, hagain⟩ := Plan.exists_run_alignJoins_stable constructed_shown
  obtain ⟨q', t', hrun', -, hkept, -⟩ := Plan.exists_run_alignJoins_stable constructed_matched
  have hshown : ¬ shown.Everywhere Plan.InputsDistinct := by
    intro hall
    have hdistinct : Names.distinct (row.names ++ row.names) = true :=
      hall joined (by simp [shown, Plan.preorder]) (by decide) (by decide)
    exact absurd hdistinct (by decide +kernel)
  have hmatched : matched.Everywhere Plan.InputsDistinct :=
    Plan.everywhere_join.2 ⟨fun hsemi => absurd rfl hsemi, Plan.everywhere_source.2 trivial,
      Plan.everywhere_source.2 trivial⟩
  obtain ⟨rfl, rfl⟩ := hkept hmatched
  exact ⟨⟨q, s', hrun, fun hid => hshown (hiff.1 hid), hagain⟩, hrun'⟩

end TwinTables

end QueryPlan
