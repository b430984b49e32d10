import QueryPlan.Proofs.JoinNames.Walk
import QueryPlan.Proofs.Plan.Replacement

/-!
# The rows of a plan whose join inputs were renamed

Whatever the walk on join inputs returns, it renames fields and keeps their types. An input
of a join is replaced by itself or by an identity projection over it, so every node of the
walk is replaced by one that can take its place. This is so for each well-formed plan, also
where the nodes cannot be told by their identities.
-/

namespace QueryPlan

namespace Plan

open PlanM

variable {p q input : Plan} {s s' : NodeSupply}

/-- An input that is aligned stays as it is or gets an identity projection above it. -/
theorem run_alignedInput_cases {offset : Nat}
    (hrun : (p.alignedInput offset input).run s = .ok (q, s')) :
    (q = input ∧ s' = s) ∨
      ∃ names, (input.project input.schema.identity names).run s = .ok (q, s') := by
  by_cases hstop : p.width < offset + input.width
  · rw [alignedInput, if_pos hstop] at hrun
    by_cases hbound : ordinalBound ≤ offset + input.width
    · rw [if_pos hbound] at hrun
      exact absurd hrun run_throw_ne_ok
    · rw [if_neg hbound] at hrun
      exact absurd hrun run_throw_ne_ok
  · rw [alignedInput_of_le (Nat.not_lt.1 hstop)] at hrun
    by_cases hnames : (p.schema.namesAt offset input.width == input.fieldNames) = true
    · rw [if_pos hnames] at hrun
      exact Or.inl (run_pure_eq_ok_iff.1 hrun)
    · rw [if_neg hnames] at hrun
      exact Or.inr ⟨_, hrun⟩

/-- The right input of a join that shows left rows only stays as it is. -/
theorem run_alignedInput_right_cases {spec : JoinSpec} {offset : Nat}
    (hrun : (if spec.joinType.emitsRight then p.alignedInput offset input
      else pure input).run s = .ok (q, s')) :
    (q = input ∧ s' = s) ∨
      ∃ names, (input.project input.schema.identity names).run s = .ok (q, s') := by
  cases hemits : spec.joinType.emitsRight with
  | true =>
      rw [hemits, if_pos rfl] at hrun
      exact run_alignedInput_cases hrun
  | false =>
      rw [hemits, if_neg Bool.false_ne_true] at hrun
      exact Or.inl (run_pure_eq_ok_iff.1 hrun)

theorem replacedBy_of_kept_or_project (hinput : input.WellFormed)
    (hcases : (q = input ∧ s' = s) ∨
      ∃ names, (input.project input.schema.identity names).run s = .ok (q, s')) :
    ReplacedBy input q := by
  rcases hcases with ⟨rfl, -⟩ | ⟨names, hproject⟩
  · exact .refl hinput
  · exact replacedBy_of_run_project hinput hproject

theorem replacedBy_of_run_alignJoin (hp : p.WellFormed)
    (hrun : p.alignJoin.run s = .ok (q, s')) : ReplacedBy p q := by
  cases p with
  | source h op =>
      obtain ⟨rfl, -⟩ := run_pure_eq_ok_iff.1 hrun
      exact .refl hp
  | transform h op input =>
      obtain ⟨rfl, -⟩ := run_pure_eq_ok_iff.1 hrun
      exact .refl hp
  | join h algorithm spec left right =>
      obtain ⟨-, hleft, hright⟩ := wellFormed_join.1 hp
      rw [alignJoin_join, run_bind_eq_ok_iff] at hrun
      obtain ⟨left', s₁, hlrun, hrun⟩ := hrun
      obtain ⟨right', s₂, hrrun, hbuild⟩ := run_bind_eq_ok_iff.1 hrun
      exact replacedBy_of_run_keepOver_join hp
        (replacedBy_of_kept_or_project hleft (run_alignedInput_cases hlrun))
        (replacedBy_of_kept_or_project hright (run_alignedInput_right_cases hrrun)) hbuild

/-- What the walk on join inputs returns can take the place of the plan it was given. -/
theorem replacedBy_of_run_alignJoins (hp : p.WellFormed)
    (hrun : p.alignJoins.run s = .ok (q, s')) : ReplacedBy p q := by
  induction p generalizing s q s' with
  | source h op =>
      obtain ⟨rfl, -⟩ := run_pure_eq_ok_iff.1 hrun
      exact .refl hp
  | transform h op input ih =>
      rw [alignJoins_transform, run_bind_eq_ok_iff] at hrun
      obtain ⟨input', s₁, hinput, hrun⟩ := hrun
      obtain ⟨p', s₂, hkeep, halign⟩ := run_bind_eq_ok_iff.1 hrun
      have hp' := replacedBy_of_run_keepOver_transform hp
        (ih (wellFormed_transform.1 hp).2 hinput) hkeep
      exact hp'.trans (replacedBy_of_run_alignJoin hp'.wellFormed halign)
  | join h algorithm spec left right ihl ihr =>
      obtain ⟨-, hleft, hright⟩ := wellFormed_join.1 hp
      rw [alignJoins_join, run_bind_eq_ok_iff] at hrun
      obtain ⟨left', s₁, hlrun, hrun⟩ := hrun
      obtain ⟨right', s₂, hrrun, hrun⟩ := run_bind_eq_ok_iff.1 hrun
      obtain ⟨p', s₃, hkeep, halign⟩ := run_bind_eq_ok_iff.1 hrun
      have hp' := replacedBy_of_run_keepOver_join hp (ihl hleft hlrun) (ihr hright hrrun) hkeep
      exact hp'.trans (replacedBy_of_run_alignJoin hp'.wellFormed halign)

end Plan

end QueryPlan
