import QueryPlan.Proofs.Plan.Register
import QueryPlan.Proofs.Plan.WellFormed

/-!
# Work that does not fail

`Yields R x Q` says that the work `x`, begun when the nodes of the register `R` have been
made, succeeds with a plan for which `Q` holds. The plan is in a register to which `R` has
grown, so work on it can go on from there.

Putting the operator of a node over other inputs does not fail as long as the inputs show
the rows that they showed before. What results is the node itself or a new one.
-/

namespace QueryPlan

namespace PlanM

variable {R : Register} {x : PlanM Plan} {f : Plan → PlanM Plan} {Q Q' : Plan → Prop}

/-- The work succeeds, and what it returns is in a later register and has the property. -/
def Yields (R : Register) (x : PlanM Plan) (Q : Plan → Prop) : Prop :=
  ∃ q R', x.run R.supply = .ok (q, R'.supply) ∧ R.Grows R' ∧ q ∈ R'.nodes ∧ Q q

theorem yields_pure {q : Plan} (hmem : q ∈ R.nodes) (hq : Q q) : Yields R (pure q) Q :=
  ⟨q, R, rfl, .refl R, hmem, hq⟩

theorem Yields.bind (hx : Yields R x Q)
    (hf : ∀ q R', R.Grows R' → q ∈ R'.nodes → Q q → Yields R' (f q) Q') :
    Yields R (x >>= f) Q' := by
  obtain ⟨q, R₁, hrun, hgrows, hmem, hq⟩ := hx
  obtain ⟨r, R₂, hrun', hgrows', hmem', hr⟩ := hf q R₁ hgrows hmem hq
  exact ⟨r, R₂, run_bind_eq_ok_iff.2 ⟨q, R₁.supply, hrun, hrun'⟩, hgrows.trans hgrows', hmem', hr⟩

theorem Yields.mono (hx : Yields R x Q) (hQ : ∀ q, Q q → Q' q) : Yields R x Q' := by
  obtain ⟨q, R', hrun, hgrows, hmem, hq⟩ := hx
  exact ⟨q, R', hrun, hgrows, hmem, hQ q hq⟩

/-- Work that makes one node over nodes that are there. -/
theorem yields_add {p : Plan} (hrun : x.run R.supply = .ok (p, R.supply.rest))
    (hid : p.id = ⟨R.supply.next⟩) (hinputs : ∀ i ∈ p.inputs, i ∈ R.nodes) (hp : Q p) :
    Yields R x Q := by
  obtain ⟨R', hgrows, hsupply, hmem⟩ := R.exists_add hid hinputs
  exact ⟨p, R', hsupply ▸ hrun, hgrows, hmem, hp⟩

end PlanM

namespace Plan

open PlanM

/-- The second node is the first one, or it was made when the identities from `s` on were
left. -/
def SelfOrNew (s : NodeSupply) (p q : Plan) : Prop := q = p ∨ s.next ≤ q.id.index

variable {R : Register} {h : Header}

theorem SelfOrNew.mono {s s' : NodeSupply} {p q : Plan} (h : SelfOrNew s' p q)
    (hle : s.next ≤ s'.next) : SelfOrNew s p q :=
  h.imp_right (Nat.le_trans hle)

/-- A node is kept over the inputs it has. Over other ones it is made anew, if its operator can
be put over them. -/
theorem yields_keepOver {p : Plan} {inputs : List Plan} {Q : Plan → Prop} (hp : p ∈ R.nodes)
    (hmem : ∀ i ∈ inputs, i ∈ R.nodes)
    (hbuild : ∃ q, (p.withInputs inputs).run R.supply = .ok (q, R.supply.rest) ∧
      q.id = ⟨R.supply.next⟩ ∧ q.inputs = inputs ∧ Q q) :
    Yields R (p.keepOver inputs) fun q =>
      (inputs = p.inputs ∧ q = p) ∨ (inputs ≠ p.inputs ∧ R.supply.next ≤ q.id.index ∧ Q q) := by
  cases hsame : p.hasInputs inputs with
  | true =>
      rw [keepOver, if_pos hsame]
      exact yields_pure hp (Or.inl ⟨(R.hasInputs_iff hp hmem).1 hsame, rfl⟩)
  | false =>
      obtain ⟨q, hrun, hid, hinputs, hq⟩ := hbuild
      have hother : inputs ≠ p.inputs := fun heq => by
        rw [(R.hasInputs_iff hp hmem).2 heq] at hsame
        cases hsame
      rw [keepOver, hsame, if_neg Bool.false_ne_true]
      exact yields_add hrun hid (hinputs ▸ hmem)
        (Or.inr ⟨hother, Nat.le_of_eq (congrArg NodeId.index hid).symm, hq⟩)

/-- Over an input that shows the same row a node keeps its row and its traits. -/
theorem yields_keepOver_transform {op : Transform} {input input' : Plan}
    (hp : transform h op input ∈ R.nodes) (hinput : input' ∈ R.nodes)
    (hfits : op.Fits input.schema h.schema) (hrow : input'.schema = input.schema) :
    Yields R ((transform h op input).keepOver [input']) fun q =>
      (∃ h', q = .transform h' op input' ∧ h'.schema = h.schema ∧ h'.traits = h.traits) ∧
        SelfOrNew R.supply (.transform h op input) q := by
  have hderived : derivedSchema h.schema op input'.schema = .ok h.schema := by
    rw [hrow]
    exact hfits.derivedSchema_eq
  refine (yields_keepOver hp (List.forall_mem_singleton.2 hinput)
    (Q := fun q => ∃ h', q = .transform h' op input' ∧ h'.schema = h.schema ∧
      h'.traits = h.traits)
    ⟨_, run_withInputs_transform_eq_ok_iff.2 ⟨h.schema, hderived, rfl, rfl⟩, rfl, rfl, _, rfl,
      rfl, rfl⟩).mono ?_
  rintro q (⟨hsame, rfl⟩ | ⟨-, hnew, hq⟩)
  · exact ⟨⟨h, by rw [List.singleton_inj.1 hsame], rfl, rfl⟩, Or.inl rfl⟩
  · exact ⟨hq, Or.inr hnew⟩

/-- Over inputs from which its row follows a join keeps its row and its traits. -/
theorem yields_keepOver_join {algorithm : JoinAlgorithm} {spec : JoinSpec}
    {left right left' right' : Plan} (hp : join h algorithm spec left right ∈ R.nodes)
    (hleft : left' ∈ R.nodes) (hright : right' ∈ R.nodes)
    (hrow : Schema.join left'.schema right'.schema spec.joinType = h.schema)
    (hany : h.traits.distribution = .any) :
    Yields R ((join h algorithm spec left right).keepOver [left', right']) fun q =>
      (∃ h', q = .join h' algorithm spec left' right' ∧ h'.schema = h.schema ∧
        h'.traits = h.traits) ∧ SelfOrNew R.supply (.join h algorithm spec left right) q := by
  refine (yields_keepOver hp (by simp [hleft, hright])
    (Q := fun q => ∃ h', q = .join h' algorithm spec left' right' ∧ h'.schema = h.schema ∧
      h'.traits = h.traits)
    ⟨_, run_withInputs_join_eq_ok_iff.2 ⟨rfl, rfl⟩, rfl, rfl, _, rfl, hrow,
      Traits.forgetDistribution_of_any hany⟩).mono ?_
  rintro q (⟨hsame, rfl⟩ | ⟨-, hnew, hq⟩)
  · rw [inputs, List.cons.injEq, List.singleton_inj] at hsame
    exact ⟨⟨h, by rw [hsame.1, hsame.2], rfl, rfl⟩, Or.inl rfl⟩
  · exact ⟨hq, Or.inr hnew⟩

end Plan

end QueryPlan
