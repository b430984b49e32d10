import QueryPlan.Proofs.Plan.Rebuilding
import QueryPlan.Proofs.Recomposition

/-!
# Histories of plans

Plans come about one call after the other. A call makes a node over plans that are there, or it
hands such a plan to a pass. Whatever has been called, each identity in use belongs to one node,
so what is remembered under an identity is remembered of this node. A pass does not put a node
into two places of a plan in which every node had one place.

Only one function takes the row of a node as it is given. As long as it is not called, every
node carries what its operator derives from its inputs, also after nodes have been put over
other inputs and plans have gone through passes. Any such plan can therefore be made again from
the leaves to the root, and what comes out is the same plan under new identities.
-/

namespace QueryPlan

open Plan (Recomposed Rederives MadeBetween)

/-- A call of a function that returns a plan. -/
inductive Call where
  | construct (construction : Construction)
  | ofParts (op : Operator) (schema : Schema) (traits : Traits) (inputs : List Plan)
  | withInputs (p : Plan) (inputs : List Plan)
  | alignedInput (p : Plan) (offset : Nat) (input : Plan)
  | separateStars (p : Plan)
  | alignJoins (p : Plan)
  | standard (settings : Settings) (p : Plan)

namespace Call

/-- The plans that the function is given. -/
def given : Call → List Plan
  | .construct construction => construction.inputs
  | .ofParts _ _ _ inputs => inputs
  | .withInputs p inputs => p :: inputs
  | .alignedInput p _ input => [p, input]
  | .separateStars p | .alignJoins p | .standard _ p => [p]

def run : Call → PlanM Plan
  | .construct construction => construction.run
  | .ofParts op schema traits inputs => Plan.ofParts op schema traits inputs
  | .withInputs p inputs => p.withInputs inputs
  | .alignedInput p offset input => p.alignedInput offset input
  | .separateStars p => p.separateStars
  | .alignJoins p => p.alignJoins
  | .standard settings p => fun s => (Pass.runAll settings Pass.standard p s).outcome

/-- The rows of the nodes that the call makes are derived and not taken as they are given. -/
def derivesRows : Call → Bool
  | .ofParts _ _ _ _ => false
  | _ => true

/-- The call makes one node over plans that it was given. -/
structure Makes (c : Call) (s : NodeSupply) (q : Plan) (s' : NodeSupply) : Prop where
  id_eq : q.id = ⟨s.next⟩
  inputs_subset : q.inputs ⊆ c.given
  supply_eq : s' = s.rest
  rederives : c.derivesRows = true → q.Rederives

variable {c : Call} {R : Register} {p q : Plan} {s s' : NodeSupply} {inputs : List Plan}

theorem makes_ofParts {op : Operator} {schema : Schema} {traits : Traits}
    (hrun : (Plan.ofParts op schema traits inputs).run s = .ok (q, s')) :
    (ofParts op schema traits inputs).Makes s q s' := by
  have hnever : (ofParts op schema traits inputs).derivesRows = true → q.Rederives := by
    intro hderives
    cases hderives
  unfold Plan.ofParts at hrun
  split at hrun
  · obtain ⟨rfl, rfl⟩ := Plan.run_newSource_eq_ok_iff.1 hrun
    exact ⟨rfl, List.Subset.refl _, rfl, hnever⟩
  · obtain ⟨rfl, rfl⟩ := Plan.run_newTransform_eq_ok_iff.1 hrun
    exact ⟨rfl, List.Subset.refl _, rfl, hnever⟩
  · obtain ⟨rfl, rfl⟩ := Plan.run_newJoin_eq_ok_iff.1 hrun
    exact ⟨rfl, List.Subset.refl _, rfl, hnever⟩
  · exact absurd hrun PlanM.run_throw_ne_ok

theorem makes_withInputs (hrun : (p.withInputs inputs).run s = .ok (q, s')) :
    (withInputs p inputs).Makes s q s' := by
  unfold Plan.withInputs at hrun
  split at hrun
  · obtain ⟨rfl, rfl⟩ := Plan.run_newSource_eq_ok_iff.1 hrun
    exact ⟨rfl, List.nil_subset _, rfl, fun _ => trivial⟩
  · obtain ⟨schema, hderived, hrun⟩ := PlanM.run_lift_bind_eq_ok_iff.1 hrun
    obtain ⟨rfl, rfl⟩ := Plan.run_newTransform_eq_ok_iff.1 hrun
    exact ⟨rfl, List.subset_cons_self _ _, rfl, fun _ => Plan.derivedSchema_again hderived⟩
  · obtain ⟨rfl, rfl⟩ := Plan.run_newJoin_eq_ok_iff.1 hrun
    exact ⟨rfl, List.subset_cons_self _ _, rfl, fun _ => ⟨rfl, rfl⟩⟩
  · exact absurd hrun PlanM.run_throw_ne_ok

/-- A call makes one node, or it puts a plan together again. -/
theorem makes_or_recomposed (hgiven : ∀ i ∈ c.given, i ∈ R.nodes)
    (hrun : c.run.run R.supply = .ok (q, s')) :
    c.Makes R.supply q s' ∨ ∃ p ∈ c.given, Recomposed R.supply p q s' := by
  cases c with
  | construct construction =>
      have hmakes := Construction.makes_of_run hrun
      have hinputs : q.inputs ⊆ (construct construction).given := by
        rw [hmakes.inputs_eq]
        exact List.Subset.refl _
      exact Or.inl ⟨hmakes.id_eq, hinputs, hmakes.supply_eq, fun _ => hmakes.rowFits.rederives⟩
  | ofParts op schema traits inputs => exact Or.inl (makes_ofParts hrun)
  | withInputs p inputs => exact Or.inl (makes_withInputs hrun)
  | alignedInput p offset input =>
      exact Or.inr ⟨input, by simp [given],
        Plan.recomposed_of_kept_or_project (Plan.run_alignedInput_cases hrun)⟩
  | separateStars p =>
      have hp : p ∈ R.nodes := hgiven p (List.mem_singleton_self p)
      exact Or.inr ⟨p, List.mem_singleton_self p,
        StarColumn.recomposed_of_run_separateStars hp hrun⟩
  | alignJoins p =>
      exact Or.inr ⟨p, List.mem_singleton_self p, Plan.recomposed_of_run_alignJoins hrun⟩
  | standard settings p =>
      have hp : p ∈ R.nodes := hgiven p (List.mem_singleton_self p)
      exact Or.inr ⟨p, List.mem_singleton_self p,
        Pass.recomposed_of_outcome_runAll Pass.recomposes_of_mem_standard hp hrun⟩

theorem exists_register (hgiven : ∀ i ∈ c.given, i ∈ R.nodes)
    (hrun : c.run.run R.supply = .ok (q, s')) :
    ∃ R', R.Grows R' ∧ R'.supply = s' ∧ q ∈ R'.nodes := by
  rcases makes_or_recomposed hgiven hrun with hmakes | ⟨p, hp, hq⟩
  · rw [hmakes.supply_eq]
    exact R.exists_add hmakes.id_eq fun i hi => hgiven i (hmakes.inputs_subset hi)
  · exact hq.exists_register (hgiven p hp)

theorem everywhere_rederives (hderives : c.derivesRows = true)
    (hgiven : ∀ i ∈ c.given, i ∈ R.nodes) (hnodes : ∀ i ∈ c.given, i.Everywhere Rederives)
    (hrun : c.run.run R.supply = .ok (q, s')) : q.Everywhere Rederives := by
  rcases makes_or_recomposed hgiven hrun with hmakes | ⟨p, hp, hq⟩
  · exact Plan.everywhere_iff_inputs.2
      ⟨hmakes.rederives hderives, fun i hi => hnodes i (hmakes.inputs_subset hi)⟩
  · exact hq.everywhere_rederives (hnodes p hp)

end Call

/-- The plans that there are after calls of the allowed kinds, the latest one first, and the
identities that are left. -/
inductive History (allowed : Call → Prop) : List Plan → NodeSupply → Prop where
  | start (s : NodeSupply) : History allowed [] s
  /-- A call over plans that are there succeeds. -/
  | call {nodes : List Plan} {s s' : NodeSupply} {q : Plan} (c : Call) :
    History allowed nodes s → allowed c → (∀ i ∈ c.given, i ∈ nodes) →
      c.run.run s = .ok (q, s') → History allowed (q :: nodes) s'
  /-- An input of a plan is taken as a plan of its own. -/
  | input {nodes : List Plan} {s : NodeSupply} {p i : Plan} :
    History allowed nodes s → p ∈ nodes → i ∈ p.inputs → History allowed (i :: nodes) s
  /-- Identities go to nodes that do not matter here, as when a call fails. -/
  | skip {nodes : List Plan} {s s' : NodeSupply} :
    History allowed nodes s → s.next ≤ s'.next → History allowed nodes s'

/-- A construction of plans is a history. -/
theorem Built.history {allowed : Call → Prop} {nodes : List Plan} {s : NodeSupply}
    (hbuilt : Built nodes s) (hallowed : ∀ construction, allowed (.construct construction)) :
    History allowed nodes s := by
  induction hbuilt with
  | start s => exact .start s
  | make construction _ hinputs hrun ih =>
      exact .call (.construct construction) ih (hallowed construction) hinputs hrun
  | skip _ hle ih => exact .skip ih hle

namespace History

variable {allowed : Call → Prop} {nodes : List Plan} {s : NodeSupply} {p : Plan}

theorem exists_register (hhistory : History allowed nodes s) :
    ∃ R : Register, R.supply = s ∧ nodes ⊆ R.nodes := by
  induction hhistory with
  | start s => exact ⟨.empty s, rfl, List.nil_subset _⟩
  | call c _ _ hgiven hrun ih =>
      obtain ⟨R, rfl, hnodes⟩ := ih
      obtain ⟨R', hgrows, hsupply, hq⟩ :=
        Call.exists_register (fun i hi => hnodes (hgiven i hi)) hrun
      exact ⟨R', hsupply,
        List.cons_subset.2 ⟨hq, List.Subset.trans hnodes hgrows.nodes_subset⟩⟩
  | input _ hp hi ih =>
      obtain ⟨R, rfl, hnodes⟩ := ih
      exact ⟨R, rfl, List.cons_subset.2 ⟨R.input_mem _ (hnodes hp) _ hi, hnodes⟩⟩
  | skip _ hle ih =>
      obtain ⟨R, rfl, hnodes⟩ := ih
      exact ⟨R.skip _ hle, rfl, hnodes⟩

/-- As long as rows are derived, every node carries what its operator derives. -/
theorem everywhere_rederives (hhistory : History (fun c => c.derivesRows = true) nodes s) :
    ∀ p ∈ nodes, p.Everywhere Rederives := by
  induction hhistory with
  | start s => simp
  | call c hbefore hderives hgiven hrun ih =>
      obtain ⟨R, rfl, hnodes⟩ := hbefore.exists_register
      exact List.forall_mem_cons.2 ⟨Call.everywhere_rederives hderives
        (fun i hi => hnodes (hgiven i hi)) (fun i hi => ih i (hgiven i hi)) hrun, ih⟩
  | input _ hp hi ih =>
      exact List.forall_mem_cons.2 ⟨(Plan.everywhere_iff_inputs.1 (ih _ hp)).2 _ hi, ih⟩
  | skip _ _ ih => exact ih

/-- As long as rows are derived, every plan can be made again from the leaves to the root. What
comes out is the same plan. No node of it has two places, and no identity of it is that of a
node that was there. -/
theorem exists_rebuilt (hhistory : History (fun c => c.derivesRows = true) nodes s)
    (hp : p ∈ nodes) :
    ∃ q s', p.rebuild.run s = .ok (q, s') ∧ q.same p = true ∧ q.equal p = true ∧ q.Unshared ∧
      ∀ n ∈ q.preorder, MadeBetween s s' n ∧ ∀ m ∈ nodes, ∀ k ∈ m.preorder, n.id ≠ k.id := by
  obtain ⟨q, s', hrun, hrebuilt⟩ :=
    Plan.exists_run_rebuild (hhistory.everywhere_rederives p hp) s
  obtain ⟨R, rfl, hnodes⟩ := hhistory.exists_register
  refine ⟨q, s', hrun, hrebuilt.alike.same, hrebuilt.alike.equal, hrebuilt.unshared,
    fun n hn => ⟨hrebuilt.made n hn, fun m hm k hk => ?_⟩⟩
  have hlt := R.id_lt k (R.preorder_subset (hnodes hm) hk)
  exact (Plan.ne_of_index_lt_of_le hlt (hrebuilt.made n hn).1).symm

theorem exists_rebuilt_swappedStars :
    ∃ p s q s', SwappedStars.shown.separateStars.run ⟨5⟩ = .ok (p, s) ∧
      p.rebuild.run s = .ok (q, s') ∧ q.same p = true ∧ q.Unshared := by
  obtain ⟨nodes, hbuilt, hmem⟩ := SwappedStars.constructed_shown
  obtain ⟨p, s, hstars⟩ := PlanM.exists_run_of_isOk
    (x := SwappedStars.shown.separateStars) (s := ⟨5⟩) (by decide +kernel)
  have hbefore : History (fun c => c.derivesRows = true) nodes ⟨5⟩ :=
    hbuilt.history fun _ => rfl
  have hhistory : History (fun c => c.derivesRows = true) (p :: nodes) s :=
    .call (.separateStars SwappedStars.shown) hbefore rfl (List.forall_mem_singleton.2 hmem) hstars
  obtain ⟨q, s', hrun, hsame, -, hunshared, -⟩ := exists_rebuilt hhistory List.mem_cons_self
  exact ⟨p, s, q, s', hstars, hrun, hsame, hunshared⟩

/-- Two nodes of one identity are one node, in whatever plans they stand. A plan in which no
node has two places comes out of either pass, or of both, as such a plan, and its nodes were in
the plan or have been made by the call. -/
theorem eq_of_id_eq_and_unshared_of_run (hhistory : History allowed nodes s) :
    (∀ p ∈ nodes, ∀ q ∈ nodes, ∀ n ∈ p.preorder, ∀ m ∈ q.preorder, n.id = m.id → n = m) ∧
      ∀ p ∈ nodes, p.Unshared → ∀ q s',
        (p.separateStars.run s = .ok (q, s') ∨ p.alignJoins.run s = .ok (q, s') ∨
          ∃ settings, (Pass.runAll settings Pass.standard p s).outcome = .ok (q, s')) →
        q.Unshared ∧ ∀ n ∈ q.preorder, n ∈ p.preorder ∨ MadeBetween s s' n := by
  obtain ⟨R, rfl, hnodes⟩ := hhistory.exists_register
  constructor
  · intro p hp q hq n hn m hm heq
    exact R.eq_of_id_eq n (R.preorder_subset (hnodes hp) hn) m
      (R.preorder_subset (hnodes hq) hm) heq
  · intro p hp hunshared q s' hrun
    have hpR := hnodes hp
    have hq : Recomposed R.supply p q s' := by
      rcases hrun with hstars | hjoins | ⟨settings, hboth⟩
      · exact StarColumn.recomposed_of_run_separateStars hpR hstars
      · exact Plan.recomposed_of_run_alignJoins hjoins
      · exact Pass.recomposed_of_outcome_runAll Pass.recomposes_of_mem_standard hpR hboth
    exact ⟨hq.unshared (fun n hn => R.id_lt n (R.preorder_subset hpR hn)) hunshared,
      fun n hn => hq.old_or_new hn⟩

theorem eq_of_id_eq_and_unshared_of_run_swappedStars :
    ∃ q s', (Pass.runAll {} Pass.standard SwappedStars.shown ⟨5⟩).outcome = .ok (q, s') ∧
      q.Unshared ∧ ∀ n ∈ q.preorder, n ∈ SwappedStars.shown.preorder ∨ MadeBetween ⟨5⟩ s' n := by
  obtain ⟨nodes, hbuilt, hmem⟩ := SwappedStars.constructed_shown
  have hhistory : History (fun _ => True) nodes ⟨5⟩ := hbuilt.history fun _ => trivial
  have hshown : SwappedStars.shown.Unshared := by
    rw [Plan.Unshared]
    decide
  obtain ⟨q, s', hrun⟩ := PlanM.exists_run_of_isOk (s := ⟨5⟩)
    (x := fun s => (Pass.runAll {} Pass.standard SwappedStars.shown s).outcome)
    (by decide +kernel)
  obtain ⟨-, hkept⟩ := eq_of_id_eq_and_unshared_of_run hhistory
  exact ⟨q, s', hrun, hkept _ hmem hshown q s' (Or.inr (Or.inr ⟨{}, hrun⟩))⟩

end History

end QueryPlan
