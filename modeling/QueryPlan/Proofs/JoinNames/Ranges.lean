import QueryPlan.Proofs.JoinNames.Stability

/-!
# Which ranges of a row an input can be aligned with

To align an input with a node is to give it the names of a range of the node's row. The range is
as wide as the input and is given by the place of its first field. In a range that lies in the row
an input with the very names is kept, and any other input is put under a projection that hands on
its row under the names of the range. The projection is refused if two of these names are alike,
and a range that leaves the row is refused in any case.

The names of a join that emits right rows are told apart, and those of any other join are the names
of its left input. So the inputs of a join can always be aligned with it.

The end of a range is a sum of two ordinals, and it may itself be none. Such a range leaves the row,
too, but the refusal does not say so, since the sum is what it would have to name. This is so where
sums are checked. Where they are not, the end of such a range comes out too small by the bound, and
whether it is refused then depends on the width of the row.
-/

namespace QueryPlan

namespace Plan

open PlanM

variable {p q input left right : Plan} {offset : Nat} {s s' t t' : NodeSupply}
  {algorithm : JoinAlgorithm} {spec : JoinSpec}

/-- A range that leaves the row is refused. -/
theorem run_alignedInput_of_lt (hstop : p.width < offset + input.width) :
    (p.alignedInput offset input).run s =
      .error (if ordinalBound ≤ offset + input.width then .ordinalOverflow offset input.width
        else .inputUnresolved (offset + input.width) offset (p.width - offset)) := by
  rw [alignedInput, if_pos hstop]
  split <;> rfl

theorem run_alignedInput_of_eq (hstop : offset + input.width ≤ p.width)
    (hnames : p.schema.namesAt offset input.width = input.fieldNames) :
    (p.alignedInput offset input).run s = .ok (input, s) := by
  rw [alignedInput_of_le hstop, if_pos (beq_iff_eq.2 hnames)]
  rfl

theorem alignedInput_of_ne (hstop : offset + input.width ≤ p.width)
    (hnames : p.schema.namesAt offset input.width ≠ input.fieldNames) :
    p.alignedInput offset input =
      input.project input.schema.identity (p.schema.namesAt offset input.width) := by
  rw [alignedInput_of_le hstop, if_neg (by rwa [beq_iff_eq])]

/-- Under names that are told apart an input with other names gets a projection above it. -/
theorem exists_run_alignedInput_of_ne (hstop : offset + input.width ≤ p.width)
    (hnames : p.schema.namesAt offset input.width ≠ input.fieldNames)
    (hdistinct : Names.distinct (p.schema.namesAt offset input.width) = true) :
    ∃ q, (p.alignedInput offset input).run s = .ok (q, s.rest) ∧ q.inputs = [input] ∧
      q.isIdentityProjection = true ∧ q.fieldNames = p.schema.namesAt offset input.width := by
  have hlength : (p.schema.namesAt offset input.width).length = input.width :=
    Schema.length_namesAt hstop
  rw [alignedInput_of_ne hstop hnames]
  refine ⟨_, run_projectWith_eq_ok_iff.2 ⟨fun e => Schema.lt_width_of_mem_identity,
    fun _ => hdistinct, ?_, rfl, rfl⟩, rfl, ?_, ?_⟩
  · rw [Schema.length_identity, hlength]
    rfl
  · exact handsOn_iff.2 rfl
  · refine Schema.names_ofNamesTypes ?_
    rw [Schema.map_type_identity, Schema.length_types, hlength]
    rfl

/-- An input is aligned if its range lies in the row and names which it has not are told apart. -/
theorem exists_run_alignedInput (hstop : offset + input.width ≤ p.width)
    (hdistinct : input.fieldNames ≠ p.schema.namesAt offset input.width →
      Names.distinct (p.schema.namesAt offset input.width) = true) :
    ∃ q s', (p.alignedInput offset input).run s = .ok (q, s') := by
  by_cases hnames : p.schema.namesAt offset input.width = input.fieldNames
  · exact ⟨input, s, run_alignedInput_of_eq hstop hnames⟩
  · obtain ⟨q, hrun, -⟩ := exists_run_alignedInput_of_ne (s := s) hstop hnames
      (hdistinct (Ne.symm hnames))
    exact ⟨q, s.rest, hrun⟩

/-- The inputs of a join can be aligned with the join. -/
theorem exists_run_alignedInput_of_run_joinWith
    (hmake : (joinWith algorithm spec left right).run t = .ok (p, t')) :
    (∃ q s', (p.alignedInput 0 left).run s = .ok (q, s')) ∧
      (spec.joinType.emitsRight = true →
        ∃ q s', (p.alignedInput left.width right).run s = .ok (q, s')) := by
  obtain ⟨hordinals, hkeys, rfl, -⟩ := run_joinWith_eq_ok_iff.1 hmake
  have hfits : spec.Fits left.schema right.schema
      (.join left.schema right.schema spec.joinType) := ⟨hordinals, hkeys, rfl⟩
  exact ⟨exists_run_alignedInput hfits.left_le hfits.distinct_left, fun hemits =>
    exists_run_alignedInput (hfits.right_le hemits) fun _ =>
      Schema.distinct_namesAt (hfits.distinct_names hemits)⟩

/-- What comes of aligning an input with a range of the row of a node, for every node, every place
and every input. -/
theorem run_alignedInput_exact (p input : Plan) (offset : Nat) (s : NodeSupply) :
    (p.width < offset + input.width →
      (offset + input.width < ordinalBound → (p.alignedInput offset input).run s =
        .error (.inputUnresolved (offset + input.width) offset (p.width - offset))) ∧
      (ordinalBound ≤ offset + input.width → (p.alignedInput offset input).run s =
        .error (.ordinalOverflow offset input.width))) ∧
    (offset + input.width ≤ p.width →
      (p.schema.namesAt offset input.width = input.fieldNames →
        (p.alignedInput offset input).run s = .ok (input, s)) ∧
      (p.schema.namesAt offset input.width ≠ input.fieldNames →
        (Names.distinct (p.schema.namesAt offset input.width) = true →
          ∃ q, (p.alignedInput offset input).run s = .ok (q, s.rest) ∧ q.inputs = [input] ∧
            q.isIdentityProjection = true ∧
            q.fieldNames = p.schema.namesAt offset input.width) ∧
        (Names.distinct (p.schema.namesAt offset input.width) = false →
          (p.alignedInput offset input).run s =
            .error (.namesCollide (p.schema.namesAt offset input.width))))) ∧
    ∀ algorithm spec left right t t', (joinWith algorithm spec left right).run t = .ok (p, t') →
      (∃ q s', (p.alignedInput 0 left).run s = .ok (q, s')) ∧
        (spec.joinType ≠ .semi → spec.joinType ≠ .anti →
          ∃ q s', (p.alignedInput left.width right).run s = .ok (q, s')) := by
  refine ⟨fun hstop => ⟨fun hbound => ?_, fun hbound => ?_⟩, fun hstop =>
    ⟨run_alignedInput_of_eq hstop, fun hnames =>
      ⟨exists_run_alignedInput_of_ne hstop hnames, fun hclash => ?_⟩⟩, ?_⟩
  · rw [run_alignedInput_of_lt hstop, if_neg (Nat.not_le.2 hbound)]
  · rw [run_alignedInput_of_lt hstop, if_pos hbound]
  · rw [alignedInput_of_ne hstop hnames]
    exact run_project_identity_eq_error hclash
  · intro algorithm spec left right t t' hmake
    obtain ⟨hleft, hright⟩ := exists_run_alignedInput_of_run_joinWith hmake
    exact ⟨hleft, fun hsemi hanti => hright (emitsRight_iff.2 ⟨hsemi, hanti⟩)⟩

end Plan

namespace TwinTables

/-- The first table under two names that differ by case only. -/
def alike : Plan :=
  .transform ⟨⟨3⟩, ⟨[⟨"k", .int64⟩, ⟨"K", .int64⟩]⟩, .unknown⟩ (.project row.identity true)
    (table 0 "a")

/-- The left table has the names of the join already, and the right one gets them. A place is too
far to the right by one field or by nearly all ordinals, and the names at another are alike. -/
theorem run_alignedInput_exact_joined :
    (joined.alignedInput 0 (table 0 "a")).run ⟨4⟩ = .ok (table 0 "a", ⟨4⟩) ∧
      (∃ q, (joined.alignedInput 2 (table 1 "b")).run ⟨4⟩ = .ok (q, ⟨5⟩) ∧
        q.isIdentityProjection = true ∧ q.fieldNames = ["id0", "v0"]) ∧
      (joined.alignedInput 3 (table 1 "b")).run ⟨4⟩ = .error (.inputUnresolved 5 3 1) ∧
      (joined.alignedInput (ordinalBound - 1) (table 1 "b")).run ⟨4⟩ =
        .error (.ordinalOverflow (ordinalBound - 1) 2) ∧
      (alike.alignedInput 0 (table 1 "b")).run ⟨4⟩ = .error (.namesCollide ["k", "K"]) ∧
      ∃ q s', (joined.alignedInput 2 (table 1 "b")).run ⟨3⟩ = .ok (q, s') := by
  obtain ⟨-, hleft, -⟩ := Plan.run_alignedInput_exact joined (table 0 "a") 0 ⟨4⟩
  obtain ⟨-, hright, -⟩ := Plan.run_alignedInput_exact joined (table 1 "b") 2 ⟨4⟩
  obtain ⟨hbeyond, -, -⟩ := Plan.run_alignedInput_exact joined (table 1 "b") 3 ⟨4⟩
  obtain ⟨hfar, -, -⟩ := Plan.run_alignedInput_exact joined (table 1 "b") (ordinalBound - 1) ⟨4⟩
  obtain ⟨-, halike, -⟩ := Plan.run_alignedInput_exact alike (table 1 "b") 0 ⟨4⟩
  obtain ⟨-, -, hjoin⟩ := Plan.run_alignedInput_exact joined (table 1 "b") 2 ⟨3⟩
  obtain ⟨q, hrun, -, hidentity, hnames⟩ :=
    ((hright (by decide)).2 (by decide)).1 (by decide +kernel)
  exact ⟨(hleft (by decide)).1 rfl, ⟨q, hrun, hidentity, hnames⟩,
    (hbeyond (by decide)).1 (by decide), (hfar (by decide)).2 (by decide),
    ((halike (by decide)).2 (by decide)).2 (by decide +kernel),
    (hjoin _ _ _ _ _ _ run_joinWith_joined).2 (by decide) (by decide)⟩

end TwinTables

end QueryPlan
