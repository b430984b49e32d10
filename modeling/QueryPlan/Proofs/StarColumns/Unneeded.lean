import QueryPlan.Proofs.StarColumns.Progress
import QueryPlan.Proofs.StarColumns.TableIds

/-!
# When no prefix is needed

Without an ambiguous node the walk decides nothing, and it does not fail. It does not always
return the plan it was given, though. A projection takes over the names of its input whether or
not any of them were changed, so it is made anew or left out in any case. What is made anew
below a screen or a writer is thrown away again, and so the plan is returned as it was exactly
if every projection has one of these above it.
-/

namespace QueryPlan

/-- From the root a projection can be reached without passing a screen or a writer. -/
def Plan.exposesProjection : Plan → Bool
  | .source _ _ => false
  | .transform _ (.project _ _) _ => true
  | .transform _ (.writer _) _ | .transform _ .screen _ => false
  | .transform _ _ input => input.exposesProjection
  | .join _ _ _ left right => left.exposesProjection || right.exposesProjection

namespace StarColumn

open StarM

/-- What a plan is returned as when no prefix is needed and the identities from `s` on are
left. -/
structure LeftAlone (s : NodeSupply) (p q : Plan) : Prop where
  types_eq : q.schema.types = p.schema.types
  old_or_new : q ∈ p.preorder ∨ s.next ≤ q.id.index
  eq_of_not_exposes : p.exposesProjection = false → q = p
  id_ne_of_exposes : p.exposesProjection = true → q.id ≠ p.id

variable {R : Register} {σ : StarState} {s : NodeSupply} {p q input input' : Plan} {h : Header}

theorem LeftAlone.mono {s' : NodeSupply} (halone : LeftAlone s' p q) (hle : s.next ≤ s'.next) :
    LeftAlone s p q where
  types_eq := halone.types_eq
  old_or_new := halone.old_or_new.imp_right (Nat.le_trans hle)
  eq_of_not_exposes := halone.eq_of_not_exposes
  id_ne_of_exposes := halone.id_ne_of_exposes

theorem LeftAlone.eq_iff (halone : LeftAlone s p q) : q = p ↔ p.exposesProjection = false := by
  refine ⟨fun heq => ?_, halone.eq_of_not_exposes⟩
  cases hexposes : p.exposesProjection with
  | true => exact absurd (congrArg Plan.id heq) (halone.id_ne_of_exposes hexposes)
  | false => rfl

theorem leftAlone_refl (hp : p.exposesProjection = false) : LeftAlone s p p where
  types_eq := rfl
  old_or_new := Or.inl (Plan.mem_preorder_self p)
  eq_of_not_exposes _ := rfl
  id_ne_of_exposes hexposes := by
    rw [hp] at hexposes
    cases hexposes

/-- A node that exposes a projection and was made anew. -/
theorem leftAlone_of_new (hp : p ∈ R.nodes) (htypes : q.schema.types = p.schema.types)
    (hexposes : p.exposesProjection = true) (hnew : R.supply.next ≤ q.id.index) :
    LeftAlone R.supply p q where
  types_eq := htypes
  old_or_new := Or.inr hnew
  eq_of_not_exposes hnot := by
    rw [hexposes] at hnot
    cases hnot
  id_ne_of_exposes _ heq := by
    rw [heq] at hnew
    exact Nat.not_le.2 (R.id_lt p hp) hnew

/-- What is in the place of the input takes the place of a projection over it: it was below the
projection, or it is new. -/
theorem LeftAlone.project {exprs : List Expr} {allowDuplicates : Bool}
    (halone : LeftAlone R.supply input input')
    (hp : .transform h (.project exprs allowDuplicates) input ∈ R.nodes)
    (htypes : input'.schema.types = h.schema.types) :
    LeftAlone R.supply (.transform h (.project exprs allowDuplicates) input) input' where
  types_eq := htypes
  old_or_new :=
    halone.old_or_new.imp_left fun hold => Plan.mem_preorder_transform.2 (Or.inr hold)
  eq_of_not_exposes hnot := by cases hnot
  id_ne_of_exposes _ heq := by
    rcases halone.old_or_new with hold | hnew
    · exact R.id_ne_of_mem_preorder hp (List.mem_singleton_self _) hold heq
    · exact Nat.not_le.2 (R.id_lt _ hp) (heq ▸ hnew)

/-- Entering a node that is not ambiguous decides nothing. -/
theorem entering_eq (hp : isAmbiguous p = false) : σ.entering p = σ := by
  have hshows : showsNeed p = false := by
    cases p with
    | source h op => rfl
    | transform h op input => cases op <;> exact hp
    | join h algorithm spec left right => exact hp
  rw [StarState.entering, hshows, Bool.or_false]

theorem yields_leave_source {op : Source} (hσ : σ.prefixNeeded = false)
    (hp : Plan.source h op ∈ R.nodes) (hplain : isAmbiguous (.source h op) = false) :
    Yields R σ (leave (.source h op) []) fun q σ' => σ' = σ ∧ q = .source h op := by
  have hmixed : isMixedRow (.source h op) = false := hplain
  have hleave : Runs (leave (.source h op) []) σ R.supply (.source h op) σ R.supply := by
    rw [leave, leaveLeaf, runs_get_bind_iff, hσ, Bool.false_and, if_neg Bool.false_ne_true, hmixed]
    rfl
  exact ⟨_, σ, R, hleave, .refl R, hp, rfl, rfl⟩

/-- While no prefix is needed, the boundary of the plan throws away what its input became. -/
theorem yields_leave_boundary {op : Transform} (hop : op = .screen ∨ ∃ target, op = .writer target)
    (hσ : σ.prefixNeeded = false) (hp : .transform h op input ∈ R.nodes) :
    Yields R σ (leave (.transform h op input) [input'])
      fun q σ' => σ' = σ ∧ q = .transform h op input := by
  have hleave : Runs (leave (.transform h op input) [input']) σ R.supply
      (.transform h op input) σ R.supply := by
    rcases hop with rfl | ⟨target, rfl⟩
    · rw [leave, leaveScreen, runs_get_bind_iff, hσ, Bool.false_and, if_neg Bool.false_ne_true]
      rfl
    · rw [leave, leaveWriter, runs_get_bind_iff, hσ, if_neg Bool.false_ne_true]
      rfl
  exact ⟨_, σ, R, hleave, .refl R, hp, rfl, rfl⟩

/-- Over an input that was replaced an operator is made anew, and over the very input it is
kept. -/
theorem yields_leave_of_leftAlone {R' : Register} {op : Transform} (hop : isInner op = true)
    (hexposes : (Plan.transform h op input).exposesProjection = input.exposesProjection)
    (hp : .transform h op input ∈ R'.nodes) (hmem : input' ∈ R'.nodes)
    (hfits : op.Fits input.schema h.schema) (halone : LeftAlone R.supply input input')
    (hgrows : R.Grows R') :
    Yields R' σ (leave (.transform h op input) [input'])
      fun q σ' => σ' = σ ∧ LeftAlone R.supply (.transform h op input) q := by
  refine (yields_leave_of_isInner hop hp hmem hfits halone.types_eq).mono ?_
  rintro q σ' ⟨hdecided, htypes, ⟨hsame, rfl⟩ | ⟨hother, hnew⟩⟩
  · exact ⟨hdecided, leftAlone_refl (hexposes.trans (halone.eq_iff.1 hsame))⟩
  · have hexposed : input.exposesProjection = true :=
      Bool.of_not_eq_false fun hnot => hother (halone.eq_iff.2 hnot)
    exact ⟨hdecided, (leftAlone_of_new hp htypes (hexposes.trans hexposed) hnew).mono
      hgrows.next_le⟩

/-- The walk decides nothing and does not fail, and each node of the plan is left alone. -/
theorem yields_walk_of_unambiguous (hσ : σ.prefixNeeded = false) (hp : p ∈ R.nodes)
    (hfits : p.WellFormed) (hplain : p.Everywhere fun n => isAmbiguous n = false) :
    Yields R σ (p.walk ⟨enter, leave⟩) fun q σ' => σ' = σ ∧ LeftAlone R.supply p q := by
  induction p generalizing R with
  | source h op =>
      refine yields_enter_bind (p := .source h op) ?_
      rw [entering_eq hplain.self]
      refine (yields_leave_source hσ hp hplain.self).mono ?_
      rintro q σ' ⟨hdecided, rfl⟩
      exact ⟨hdecided, leftAlone_refl rfl⟩
  | transform h op input ih =>
      obtain ⟨hnode, hinput⟩ := Plan.wellFormed_transform.1 hfits
      have hbelow := R.input_mem _ hp input (by simp [Plan.inputs])
      refine yields_enter_bind (p := .transform h op input) ?_
      rw [entering_eq hplain.self]
      refine (ih hbelow hinput (Plan.everywhere_transform.1 hplain).2).bind ?_
      rintro input' σ' R₁ hgrows hmem ⟨rfl, halone⟩
      have hp₁ := hgrows.nodes_subset hp
      have hinner : isInner op = true →
          (Plan.transform h op input).exposesProjection = input.exposesProjection →
          Yields R₁ σ' (leave (.transform h op input) [input']) fun q τ =>
            τ = σ' ∧ LeftAlone R.supply (.transform h op input) q := fun hop hexposes =>
        yields_leave_of_leftAlone hop hexposes hp₁ hmem hnode halone hgrows
      cases op with
      | filter predicate => exact hinner rfl rfl
      | aggregate groupBy aggregates => exact hinner rfl rfl
      | sort order => exact hinner rfl rfl
      | limit offset count => exact hinner rfl rfl
      | exchange distribution => exact hinner rfl rfl
      | screen =>
          refine (yields_leave_boundary (Or.inl rfl) hσ hp₁).mono ?_
          rintro q τ ⟨hdecided, rfl⟩
          exact ⟨hdecided, leftAlone_refl rfl⟩
      | writer target =>
          refine (yields_leave_boundary (Or.inr ⟨target, rfl⟩) hσ hp₁).mono ?_
          rintro q τ ⟨hdecided, rfl⟩
          exact ⟨hdecided, leftAlone_refl rfl⟩
      | project exprs allowDuplicates =>
          refine (yields_leave_project hmem hnode halone.types_eq).mono ?_
          rintro q τ ⟨hdecided, htypes, hq⟩
          refine ⟨hdecided, ?_⟩
          rcases hq with rfl | hnew
          · exact halone.project hp htypes
          · exact (leftAlone_of_new hp₁ htypes rfl hnew).mono hgrows.next_le
  | join h algorithm spec left right ihl ihr =>
      obtain ⟨⟨hnode, -⟩, hleft, hright⟩ := Plan.wellFormed_join.1 hfits
      obtain ⟨hself, hlplain, hrplain⟩ := Plan.everywhere_join.1 hplain
      have hlbelow := R.input_mem _ hp left (by simp [Plan.inputs])
      have hrbelow := R.input_mem _ hp right (by simp [Plan.inputs])
      refine yields_enter_bind (p := .join h algorithm spec left right) ?_
      rw [entering_eq hself]
      refine (ihl hlbelow hleft hlplain).bind ?_
      rintro left' σ₁ R₁ hgrows₁ hleft' ⟨rfl, hl⟩
      refine (ihr (hgrows₁.nodes_subset hrbelow) hright hrplain).bind ?_
      rintro right' σ₂ R₂ hgrows₂ hright' ⟨rfl, hr⟩
      have hp₂ := hgrows₂.nodes_subset (hgrows₁.nodes_subset hp)
      refine (yields_leave_join hp₂ (hgrows₂.nodes_subset hleft') hright' hnode hl.types_eq
        hr.types_eq).mono ?_
      have hexposes : (Plan.join h algorithm spec left right).exposesProjection = false ↔
          left' = left ∧ right' = right := by
        rw [Plan.exposesProjection, Bool.or_eq_false_iff, hl.eq_iff, hr.eq_iff]
      rintro q τ ⟨hdecided, htypes, ⟨hsame, rfl⟩ | ⟨hother, hnew⟩⟩
      · exact ⟨hdecided, leftAlone_refl (hexposes.2 hsame)⟩
      · have hexposed := Bool.of_not_eq_false fun hnot => hother (hexposes.1 hnot)
        exact ⟨hdecided, (leftAlone_of_new hp₂ htypes hexposed hnew).mono
          (hgrows₁.trans hgrows₂).next_le⟩

end StarColumn

/-- If no node of a constructed plan is ambiguous, the pass on star columns succeeds and comes to
none of its decisions. It returns the very plan if no projection can be reached from the root
without passing a screen or a writer, and otherwise another node. -/
theorem Plan.exists_run_separateStars_of_unambiguous {p : Plan} {s : NodeSupply}
    (hp : p.Constructed s) (hplain : ∀ n ∈ p.preorder, StarColumn.isAmbiguous n = false) :
    ∃ q s', p.separateStars.run s = .ok (q, s') ∧
      p.separateStarsWith.run s = .ok ((q, {}), s') ∧
      (p.exposesProjection = false → q = p) ∧ (p.exposesProjection = true → q.id ≠ p.id) := by
  obtain ⟨R, rfl, hmem⟩ := hp.exists_register
  obtain ⟨q, σ', R', hrun, -, -, rfl, halone⟩ :=
    StarColumn.yields_walk_of_unambiguous (σ := {}) rfl hmem hp.wellFormed hplain
  have hwith : p.separateStarsWith.run R.supply = .ok ((q, {}), R'.supply) := hrun
  exact ⟨q, R'.supply, PlanM.run_bind_eq_ok_iff.2 ⟨(q, {}), R'.supply, hwith, rfl⟩, hwith,
    halone.eq_of_not_exposes, halone.id_ne_of_exposes⟩

/-! The columns of a table under other names, and what a user is shown of them. -/

namespace RenamedColumns

def row : Schema := ⟨[⟨"a", .int64⟩, ⟨"b", .int64⟩]⟩

def renamedRow : Schema := ⟨[⟨"p", .int64⟩, ⟨"q", .int64⟩]⟩

def table : Plan := .source ⟨⟨0⟩, row, .unknown⟩ (.scan ⟨"s", "t"⟩)

def renamed : Plan := .transform ⟨⟨1⟩, renamedRow, .unknown⟩ (.project row.identity false) table

def shown : Plan := .transform ⟨⟨2⟩, renamedRow, .distributed .single⟩ .screen renamed

theorem built_renamed : Built [renamed, table] ⟨2⟩ := by
  have htable : Built [table] ⟨1⟩ :=
    (Built.start ⟨0⟩).scan ⟨"s", "t"⟩ row
  have hrun : (table.project row.identity ["p", "q"]).run ⟨1⟩ = .ok (renamed, ⟨2⟩) :=
    Plan.run_projectWith_eq_ok_iff.2 ⟨by decide, fun _ => by decide +kernel, rfl, rfl, rfl⟩
  exact htable.over (.project table row.identity ["p", "q"]) rfl hrun

theorem constructed_shown : shown.Constructed ⟨3⟩ :=
  ⟨_, built_renamed.over (.screen renamed) rfl rfl, List.mem_cons_self⟩

/-- Only what is shown is returned as it was; the columns themselves lose their names. -/
theorem exists_run_separateStars_of_unambiguous_renamed :
    (∃ q s', renamed.separateStars.run ⟨2⟩ = .ok (q, s') ∧ q.id ≠ renamed.id) ∧
      ∃ s', shown.separateStars.run ⟨3⟩ = .ok (shown, s') := by
  have hrenamed : renamed.Constructed ⟨2⟩ := ⟨_, built_renamed, List.mem_cons_self⟩
  obtain ⟨q, s', hrun, -, -, hne⟩ :=
    Plan.exists_run_separateStars_of_unambiguous hrenamed (by decide)
  obtain ⟨q', s'', hrun', -, heq, -⟩ :=
    Plan.exists_run_separateStars_of_unambiguous constructed_shown (by decide)
  exact ⟨⟨q, s', hrun, hne rfl⟩, s'', heq rfl ▸ hrun'⟩

end RenamedColumns

end QueryPlan
