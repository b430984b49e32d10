import QueryPlan.Pass.Standard
import QueryPlan.Proofs.JoinNames.Rows
import QueryPlan.Proofs.StarColumns.Rows

/-!
# What the standard passes make of a plan

The user of a plan sees the row of its screen. The walk on star columns puts the names back
under the screen or leaves this to a writer. If there is no writer at all, or if the writer
stands right under the screen, the row stays exactly as it was. The walk on join inputs
keeps every row. It aligns all joins of a well-formed plan and never fails on one. Both return
a well-formed plan.
-/

namespace QueryPlan

namespace StarColumn

variable {σ σ' : StarState} {s s' : NodeSupply} {p q : Plan}

/-- Without a writer nothing takes over the restoring of names. -/
theorem Becomes.writerRestores_eq (hwalk : Becomes σ s p q σ' s')
    (hnone : p.Everywhere fun n => n.kind ≠ .writer) :
    σ'.writerRestores = σ.writerRestores := by
  induction hwalk with
  | source hstep => cases hstep <;> rfl
  | transform _ hstep ih =>
      obtain ⟨hnode, hinput⟩ := Plan.everywhere_transform.1 hnone
      rw [StarState.entering] at ih
      cases hstep with
      | writerRebuilt => exact absurd rfl hnode
      | writerKept | screenKept | screenRebuilt | screenRestored | projectDropped
      | projectRebuilt | kept | rebuilt => exact ih hinput
  | join _ _ _ ihl ihr =>
      obtain ⟨-, hleft, hright⟩ := Plan.everywhere_join.1 hnone
      rw [StarState.entering] at ihl
      rw [ihr hright, ihl hleft]

/-- The row of a writer is always the same. -/
theorem Becomes.schema_eq_of_writer (hwalk : Becomes σ s p q σ' s') (hp : p.kind = .writer) :
    q.schema = p.schema := by
  obtain ⟨h, target, input, rfl⟩ := Plan.eq_writer_of_kind hp
  cases hwalk with
  | transform _ hstep =>
      cases hstep with
      | writerKept | writerRebuilt => rfl
      | kept hinner | rebuilt hinner => cases hinner

/-- A screen shows the row it showed, if there is no writer or one right below it. -/
theorem Becomes.schema_eq_of_screen (hwalk : Becomes {} s p q σ' s') (hfits : p.WellFormed)
    (hp : p.kind = .screen)
    (hwriter : (p.Everywhere fun n => n.kind ≠ .writer) ∨ ∀ i ∈ p.inputs, i.kind = .writer) :
    q.schema = p.schema := by
  obtain ⟨h, input, rfl⟩ := Plan.eq_screen_of_kind hp
  cases hwalk with
  | transform hinput hstep =>
      cases hstep with
      | screenKept | screenRestored => rfl
      | kept hinner | rebuilt hinner => cases hinner
      | screenRebuilt _ _ hrestores =>
          rcases hwriter with hnone | hbelow
          · have hnever := hinput.writerRestores_eq (Plan.everywhere_transform.1 hnone).2
            rw [hrestores] at hnever
            cases hnever
          · have hrow := hinput.schema_eq_of_writer (hbelow _ List.mem_cons_self)
            have hshown := (Plan.wellFormed_transform.1 hfits).1
            exact hrow.trans hshown.symm

end StarColumn

namespace Pass

variable {settings : Settings} {p q : Plan} {s s' : NodeSupply}

/-- The first pass of a run is skipped, or it fails and with it the run, or the others go on
with what it returns. -/
theorem outcome_runAll_cons (pass : Pass) (rest : List Pass) :
    (runAll settings (pass :: rest) p s).outcome =
      if pass.enabled settings then
        (pass.run settings p).run s >>= fun result =>
          (runAll settings rest result.1 result.2).outcome
      else (runAll settings rest p s).outcome := by
  rw [runAll]
  by_cases hon : pass.enabled settings = true
  · rw [if_pos hon, if_pos hon]
    cases (pass.run settings p).run s <;> rfl
  · rw [if_neg hon, if_neg hon]
    rfl

/-- The pass on join inputs does not fail on a well-formed plan, it keeps the row, and if it
is on it aligns the joins. -/
theorem outcome_runAll_joinNames {R : Register} (hp : p ∈ R.nodes) (hfits : p.WellFormed) :
    ∃ q s', (runAll settings [joinNames] p R.supply).outcome = .ok (q, s') ∧
      q.schema = p.schema ∧ (settings.renameJoinInputs = true → q.Everywhere Plan.IsAligned) := by
  rw [outcome_runAll_cons]
  by_cases hon : settings.renameJoinInputs = true
  · obtain ⟨q, R', hrun, -, -, haligned⟩ := Plan.yields_alignJoins hp hfits
    refine ⟨q, R'.supply, ?_, haligned.schema_eq, fun _ => (haligned.wellFormed hfits).2⟩
    have hpass : (joinNames.run settings p).run R.supply = .ok (q, R'.supply) := hrun
    have henabled : joinNames.enabled settings = true := hon
    rw [if_pos henabled, hpass]
    rfl
  · exact ⟨p, R.supply, if_neg hon, rfl, fun honly => absurd honly hon⟩

/-- The run either fails as the pass on star columns does, or it succeeds with a plan that
shows the same row. -/
theorem outcome_runAll_standard_cases (settings : Settings) (hp : p.Constructed s)
    (hscreen : p.kind = .screen)
    (hwriter : (p.Everywhere fun n => n.kind ≠ .writer) ∨ ∀ i ∈ p.inputs, i.kind = .writer) :
    (∃ e, (runAll settings standard p s).outcome = .error e ∧
      settings.renameStarColumns = true ∧ p.separateStars.run s = .error e) ∨
    ∃ q s', (runAll settings standard p s).outcome = .ok (q, s') ∧ q.schema = p.schema ∧
      (settings.renameJoinInputs = true → q.Everywhere Plan.IsAligned) := by
  rw [standard, outcome_runAll_cons]
  by_cases hon : settings.renameStarColumns = true
  · have henabled : starColumns.enabled settings = true := hon
    have hpass : starColumns.run settings p = p.separateStars := rfl
    rw [if_pos henabled, hpass]
    cases hrun : p.separateStars.run s with
    | error e => exact Or.inl ⟨e, rfl, hon, rfl⟩
    | ok result =>
        obtain ⟨p', s₁⟩ := result
        obtain ⟨σ, hwith⟩ := StarColumn.exists_run_separateStarsWith hrun
        obtain ⟨hwalk, R, rfl, hmem⟩ := StarColumn.becomes_of_run_separateStarsWith hp hwith
        obtain ⟨hfits, -⟩ := hwalk.wellFormed hp.wellFormed
        have hrow := hwalk.schema_eq_of_screen hp.wellFormed hscreen hwriter
        obtain ⟨q, s', hlast, hschema, haligned⟩ := outcome_runAll_joinNames hmem hfits
        exact Or.inr ⟨q, s', hlast, hschema.trans hrow, haligned⟩
  · obtain ⟨R, rfl, hmem⟩ := hp.exists_register
    obtain ⟨q, s', hlast, hschema, haligned⟩ := outcome_runAll_joinNames hmem hp.wellFormed
    exact Or.inr ⟨q, s', (if_neg hon).trans hlast, hschema, haligned⟩

/-- The standard passes keep the row that a screen shows, if there is no writer or one right
below the screen. With the pass on join inputs on, the joins of the resulting plan are
aligned. The run fails only where the pass on star columns does. -/
theorem outcome_runAll_standard (settings : Settings) (hp : p.Constructed s)
    (hscreen : p.kind = .screen)
    (hwriter : (∀ n ∈ p.preorder, n.kind ≠ .writer) ∨ ∀ i ∈ p.inputs, i.kind = .writer) :
    (∀ q s', (runAll settings standard p s).outcome = .ok (q, s') →
      q.schema = p.schema ∧
        (settings.renameJoinInputs = true → ∀ n ∈ q.preorder, n.IsAligned)) ∧
    ∀ e, (runAll settings standard p s).outcome = .error e →
      settings.renameStarColumns = true ∧ p.separateStars.run s = .error e := by
  rcases outcome_runAll_standard_cases settings hp hscreen hwriter with
    ⟨e, hrun, hon, hstars⟩ | ⟨q, s', hrun, hschema, haligned⟩
  · rw [hrun]
    constructor
    · intro q s' hok
      cases hok
    · intro e' he
      cases he
      exact ⟨hon, hstars⟩
  · rw [hrun]
    constructor
    · intro q' s₁ hok
      cases hok
      exact ⟨hschema, haligned⟩
    · intro e he
      cases he

theorem outcome_runAll_standard_swappedStars :
    ∃ q s', (runAll {} standard SwappedStars.shown ⟨5⟩).outcome = .ok (q, s') ∧
      q.schema = SwappedStars.shown.schema ∧ ∀ n ∈ q.preorder, n.IsAligned := by
  have hnone : ∀ n ∈ SwappedStars.shown.preorder, n.kind ≠ .writer := by decide
  obtain ⟨hkept, -⟩ := outcome_runAll_standard {} SwappedStars.constructed_shown rfl (Or.inl hnone)
  obtain ⟨q, s', hrun⟩ := PlanM.exists_run_of_isOk (s := ⟨5⟩)
    (x := fun s => (runAll {} standard SwappedStars.shown s).outcome) (by decide +kernel)
  obtain ⟨hschema, haligned⟩ := hkept q s' hrun
  exact ⟨q, s', hrun, hschema, haligned rfl⟩

/-- Constructed plans are well-formed, and what either of the two passes returns for a
well-formed plan is well-formed again. Every node of any plan has the number of inputs that its
kind asks for. -/
theorem wellFormed_of_constructed_or_run :
    (∀ (p : Plan) s, p.Constructed s → p.WellFormed) ∧
      (∀ (p q : Plan) s s', p.WellFormed →
        (p.separateStars.run s = .ok (q, s') ∨ p.alignJoins.run s = .ok (q, s')) →
          q.WellFormed) ∧
      ∀ p : Plan, p.inputs.length = p.kind.arity := by
  refine ⟨fun p s hp => hp.wellFormed, fun p q s s' hp hrun => ?_, Plan.length_inputs⟩
  rcases hrun with hstars | hjoins
  · exact (StarColumn.replacedBy_of_run_separateStars hp hstars).wellFormed
  · exact (Plan.replacedBy_of_run_alignJoins hp hjoins).wellFormed

theorem wellFormed_of_constructed_or_run_swappedStars :
    ∃ q q' s s', SwappedStars.shown.separateStars.run ⟨5⟩ = .ok (q, s) ∧ q.WellFormed ∧
      SwappedStars.shown.alignJoins.run ⟨5⟩ = .ok (q', s') ∧ q'.WellFormed := by
  obtain ⟨hconstructed, hkept, -⟩ := wellFormed_of_constructed_or_run
  have hshown := hconstructed _ _ SwappedStars.constructed_shown
  obtain ⟨q, s, hstars⟩ := PlanM.exists_run_of_isOk (s := ⟨5⟩)
    (x := SwappedStars.shown.separateStars) (by decide +kernel)
  obtain ⟨q', s', hjoins⟩ := PlanM.exists_run_of_isOk (s := ⟨5⟩)
    (x := SwappedStars.shown.alignJoins) (by decide +kernel)
  exact ⟨q, q', s, s', hstars, hkept _ q _ s hshown (Or.inl hstars), hjoins,
    hkept _ q' _ s' hshown (Or.inr hjoins)⟩

end Pass

end QueryPlan
