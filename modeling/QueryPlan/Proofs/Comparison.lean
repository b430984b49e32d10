import QueryPlan.Proofs.JoinNames.Walk
import QueryPlan.Proofs.StarColumns.Comparison

/-!
# The passes see nothing but structure

Two plans that are found to be the same may share their subplans differently, they may have
been numbered differently, and other plans may have been built in between. A pass cannot tell
them apart: it returns plans that are the same, or it is refused with the same error. What it
returns for one plan does not depend either on what was done before.
-/

namespace QueryPlan

namespace Plan

variable {p p' q q' input input' : Plan} {s s' : NodeSupply} {names : List String}

/-- The same names make plans that are the same out of inputs that are the same. -/
theorem Alike.renamed (hinput : Alike input input') (hrenamed : Renamed names input q)
    (hrenamed' : Renamed names input' q') : Alike q q' := by
  have hnames : input.fieldNames = input'.fieldNames := congrArg Schema.names hinput.schema_eq
  cases hrenamed with
  | kept hkept =>
      cases hrenamed' with
      | kept => exact hinput
      | renamed hother => exact absurd (hnames.symm.trans hkept) hother
  | renamed hother _ hrow htraits =>
      cases hrenamed' with
      | kept hkept => exact absurd (hnames.trans hkept) hother
      | renamed _ _ hrow' htraits' =>
          rw [hinput.schema_eq] at hrow ⊢
          exact .transform (hrow.trans hrow'.symm)
            (htraits.trans (hinput.traits_eq.trans htraits'.symm)) BEq.rfl hinput

theorem AlignedFrom.alike (halike : Alike p p') (haligned : AlignedFrom p q)
    (haligned' : AlignedFrom p' q') : Alike q q' := by
  induction haligned generalizing p' q' with
  | source =>
      cases halike with
      | source hrow htraits =>
          cases haligned'
          exact .source hrow htraits
  | transform _ hschema htraits₁ ih =>
      cases halike with
      | transform hrow htraits hop hbelow =>
          cases haligned' with
          | transform hinput' hschema' htraits₁' =>
              exact .transform (hschema.trans (hrow.trans hschema'.symm))
                (htraits₁.trans (htraits.trans htraits₁'.symm)) hop (ih hbelow hinput')
  | @join h _ _ spec left _ _ right _ _ _ _ hlrenamed hrrenamed hschema htraits₁ ihl ihr =>
      cases halike with
      | @join _ h' _ _ spec' _ left' _ right' hrow htraits hspec hlbelow hrbelow =>
          have hlnames : h.schema.namesAt 0 left.width = h'.schema.namesAt 0 left'.width := by
            rw [hrow, width, width, hlbelow.schema_eq]
          have hrnames : spec.rightNames h.schema left right =
              spec'.rightNames h'.schema left' right' := by
            simp only [JoinSpec.rightNames, JoinSpec.joinType_eq_of_beq hspec, hrow, width,
              fieldNames, hlbelow.schema_eq, hrbelow.schema_eq]
          rw [hlnames] at hlrenamed
          rw [hrnames] at hrrenamed
          cases haligned' with
          | join hleft' hright' hlrenamed' hrrenamed' hschema' htraits₁' =>
              exact .join (hschema.trans (hrow.trans hschema'.symm))
                (htraits₁.trans (htraits.trans htraits₁'.symm)) hspec
                ((ihl hlbelow hleft').renamed hlrenamed hlrenamed')
                ((ihr hrbelow hright').renamed hrrenamed hrrenamed')

/-- The pass on join inputs ends in the same way on plans that are the same. -/
theorem sameOutcome_alignJoins (hp : p.Constructed s) (hp' : p'.Constructed s')
    (halike : Alike p p') : SameOutcome (p.alignJoins.run s) (p'.alignJoins.run s') := by
  obtain ⟨R, rfl, hmem⟩ := hp.exists_register
  obtain ⟨R', rfl, hmem'⟩ := hp'.exists_register
  obtain ⟨q, R₁, hrun, -, -, haligned⟩ := yields_alignJoins hmem hp.wellFormed
  obtain ⟨q', R₁', hrun', -, -, haligned'⟩ := yields_alignJoins hmem' hp'.wellFormed
  have hdone := haligned.alike halike haligned'
  rw [hrun, hrun']
  exact ⟨hdone.same, hdone.equal⟩

theorem Constructed.mono (hp : p.Constructed s) (hle : s.next ≤ s'.next) : p.Constructed s' := by
  obtain ⟨nodes, hbuilt, hmem⟩ := hp
  exact ⟨nodes, .skip hbuilt hle, hmem⟩

/-- Both passes end in the same way on constructed plans that are found to be the same,
whatever has been built or passed since. -/
theorem sameOutcome_of_equal {nodes : List Plan} {s₁ s₂ : NodeSupply} (hbuilt : Built nodes s)
    (hp : p ∈ nodes) (hp' : p' ∈ nodes) (hequal : p.equal p' = true)
    (hs₁ : s.next ≤ s₁.next) (hs₂ : s.next ≤ s₂.next) :
    SameOutcome (p.separateStars.run s₁) (p'.separateStars.run s₂) ∧
      SameOutcome (p.alignJoins.run s₁) (p'.alignJoins.run s₂) := by
  obtain ⟨R, rfl, -⟩ := hbuilt.exists_register
  have halike := alike_of_equal hp hp' hequal
  have hconstructed : p.Constructed s₁ := Constructed.mono ⟨_, hbuilt, hp⟩ hs₁
  have hconstructed' : p'.Constructed s₂ := Constructed.mono ⟨_, hbuilt, hp'⟩ hs₂
  exact ⟨StarColumn.sameOutcome_separateStars hconstructed hconstructed' halike,
    sameOutcome_alignJoins hconstructed hconstructed' halike⟩

end Plan

/-! A table joined with itself, once as one scan and once as two. -/

namespace SharedScan

open SwappedStars

def shared : Plan :=
  .join ⟨⟨2⟩, joinedRow, .unknown⟩ .nestedLoop onTrue (table 0 "a") (table 0 "a")

def copied : Plan :=
  .join ⟨⟨3⟩, joinedRow, .unknown⟩ .nestedLoop onTrue (table 0 "a") (table 1 "a")

theorem built : Built [copied, shared, table 1 "a", table 0 "a"] ⟨4⟩ := by
  have hshared : Built [shared, table 1 "a", table 0 "a"] ⟨3⟩ :=
    (built_tables "a" "a").join (by simp) (by simp) (run_joinWith_tables 0 0 2 "a" "a")
  exact hshared.join (by simp) (by simp) (run_joinWith_tables 0 1 3 "a" "a")

theorem sameOutcome_of_equal_shared :
    Plan.SameOutcome (shared.separateStars.run ⟨4⟩) (copied.separateStars.run ⟨9⟩) ∧
      Plan.SameOutcome (shared.alignJoins.run ⟨4⟩) (copied.alignJoins.run ⟨9⟩) :=
  Plan.sameOutcome_of_equal built (by simp) (by simp) (by decide +kernel) (by decide) (by decide)

end SharedScan

end QueryPlan
