import QueryPlan.Proofs.JoinNames.Conditions
import QueryPlan.Proofs.Join.Resolution
import QueryPlan.Proofs.Skeleton

/-!
# What execution asks of a join

Execution asks a join for its extra condition and for its key conditions. Both look up fields of
the inputs by the ordinals in the description of the join. The ordinals have been compared with
the inputs when the join was made, and the passes put other inputs in their place. As a join of a
well-formed plan finds its ordinals in the inputs that it has, no field is ever missed. All that
can go wrong with the keys is then in the conjuncts of the condition, which are a part of the
description. So a pass that keeps the skeleton of a plan keeps what its joins answer, up to the
names of the fields.
-/

namespace QueryPlan

/-! ### The comparators of the keys -/

/-- The comparator of the conjunct at the place of a key. -/
def comparatorAt (conjuncts : List Expr) (position : Nat) : Except PlanError Comparator :=
  match conjuncts[position]? with
  | none => .error (.conjunctMissing position conjuncts.length)
  | some conjunct =>
    match Comparator.ofConjunct? conjunct with
    | none => .error (.comparatorUnsupported conjunct.render)
    | some comparator => .ok comparator

/-- The comparators of the keys in order, as the description of a join has them. -/
def JoinSpec.comparators (spec : JoinSpec) : Except PlanError (List Comparator) :=
  spec.keys.zipIdx.mapM fun key => comparatorAt spec.condition.conjuncts key.2

section Comparators

variable {conjuncts : List Expr} {leftNames rightNames : List String} {position : Nat}
  {spec : JoinSpec}

/-- A condition whose ordinals are in range fails only for its comparator. -/
theorem map_comparator_keyConditionAt {key : Nat × Nat} (hleft : key.1 < leftNames.length)
    (hright : key.2 < rightNames.length) :
    (keyConditionAt conjuncts leftNames rightNames position key).map KeyCondition.comparator =
      comparatorAt conjuncts position := by
  rw [keyConditionAt, comparatorAt]
  cases conjuncts[position]? with
  | none => rfl
  | some conjunct =>
      cases hc : Comparator.ofConjunct? conjunct with
      | none => simp only [hc, Except.map]
      | some comparator =>
          simp only [hc, nameAt_of_lt hleft, nameAt_of_lt hright]
          rfl

theorem exists_comparatorAt_iff : (∃ c, comparatorAt conjuncts position = .ok c) ↔
    ∃ e c, conjuncts[position]? = some e ∧ Comparator.Compares c e := by
  simp only [comparatorAt, ← Comparator.ofConjunct?_eq_some_iff]
  cases conjuncts[position]? with
  | none => exact iff_of_false nofun nofun
  | some conjunct =>
      cases hc : Comparator.ofConjunct? conjunct with
      | none => simp [hc]
      | some comparator =>
          exact iff_of_true ⟨comparator, by simp only [hc]⟩ ⟨conjunct, comparator, rfl, hc⟩

theorem comparatorAt_ne_ordinalOutOfRange (ordinal width : Nat) :
    comparatorAt conjuncts position ≠ .error (.ordinalOutOfRange ordinal width) := by
  rw [comparatorAt]
  split
  · nofun
  · split <;> nofun

/-- Each key has a conjunct at its place, and this one compares for equality. -/
theorem exists_comparators_iff : (∃ comparators, spec.comparators = .ok comparators) ↔
    spec.keys.length ≤ spec.condition.conjuncts.length ∧
      ∀ e ∈ spec.condition.conjuncts.take spec.keys.length, ∃ c, Comparator.Compares c e := by
  have hplaces : (∃ comparators, spec.comparators = .ok comparators) ↔
      ∀ i < spec.keys.length, ∃ e c, spec.condition.conjuncts[i]? = some e ∧
        Comparator.Compares c e := by
    rw [JoinSpec.comparators, exists_mapM_eq_ok_iff]
    simp only [exists_comparatorAt_iff]
    constructor
    · intro h i hi
      exact h (spec.keys[i], i) (List.mem_zipIdx_iff_getElem?.2 (List.getElem?_eq_getElem hi))
    · intro h key hkey
      exact h key.2 (List.getElem?_eq_some_iff.1 (List.mem_zipIdx_iff_getElem?.1 hkey)).1
  rw [hplaces]
  constructor
  · intro h
    refine ⟨Nat.le_of_not_lt fun hlt => ?_, fun e he => ?_⟩
    · obtain ⟨e, c, he, -⟩ := h _ hlt
      rw [List.getElem?_eq_none (Nat.le_refl _)] at he
      cases he
    · obtain ⟨i, hi⟩ := List.mem_iff_getElem?.1 he
      rw [List.getElem?_take] at hi
      split at hi
      case isTrue hlt =>
        obtain ⟨e', c, he', hc⟩ := h i hlt
        rw [hi] at he'
        cases he'
        exact ⟨c, hc⟩
      case isFalse => cases hi
  · rintro ⟨hle, hall⟩ i hi
    have hlt := Nat.lt_of_lt_of_le hi hle
    obtain ⟨c, hc⟩ := hall _ (List.mem_take_iff_getElem.2 ⟨i, by omega, rfl⟩)
    exact ⟨_, c, List.getElem?_eq_getElem hlt, hc⟩

theorem comparators_ne_ordinalOutOfRange (ordinal width : Nat) :
    spec.comparators ≠ .error (.ordinalOutOfRange ordinal width) := by
  intro h
  obtain ⟨-, key, -, hfail, -⟩ := mapM_eq_error_iff.1 h
  exact comparatorAt_ne_ordinalOutOfRange ordinal width hfail

end Comparators

namespace Plan

/-- The join with this description answers what execution asks it. -/
structure ReadsBack (spec : JoinSpec) (n : Plan) : Prop where
  /-- The extra condition is handed out, whether it is wanted or not. -/
  extra : ∀ vectorize, ∃ e, n.extraCondition vectorize = .ok e
  /-- No ordinal of a key is beyond its input. -/
  in_range : ∀ ordinal width, n.keyConditions ≠ .error (.ordinalOutOfRange ordinal width)
  /-- The keys are handed out just if the condition begins with a comparison for each of them. -/
  keys : (∃ conditions, n.keyConditions = .ok conditions) ↔
    spec.keys.length ≤ spec.condition.conjuncts.length ∧
      ∀ e ∈ spec.condition.conjuncts.take spec.keys.length, ∃ c, Comparator.Compares c e

/-- Two joins which differ at most in the names of fields and in projections that do nothing.
They fail with the same error on their keys, or they compare them in the same way. -/
structure SameJoin (n n' : Plan) : Prop where
  operator_eq : n'.operator = n.operator
  skeleton_eq : n'.skeleton = n.skeleton
  comparators_eq : n'.keyConditions.map (List.map KeyCondition.comparator) =
    n.keyConditions.map (List.map KeyCondition.comparator)

section Join

variable {h : Header} {algorithm : JoinAlgorithm} {spec : JoinSpec} {left right p q : Plan}

/-- Over inputs that have its ordinals, a join fails on its keys only where its description does. -/
theorem map_comparator_keyConditions (hfits : spec.Fits left.schema right.schema h.schema) :
    (join h algorithm spec left right).keyConditions.map (List.map KeyCondition.comparator) =
      spec.comparators := by
  rw [keyConditions, QueryPlan.keyConditions, map_mapM, spec.zip_keys, JoinSpec.comparators]
  apply mapM_congr_of_mem
  rintro ⟨key, position⟩ hmem
  obtain ⟨hleft, hright⟩ := hfits.2.1 key (List.fst_mem_of_mem_zipIdx hmem)
  exact map_comparator_keyConditionAt (left.schema.length_names.symm ▸ hleft)
    (right.schema.length_names.symm ▸ hright)

theorem exists_extraCondition (hfits : spec.Fits left.schema right.schema h.schema)
    (vectorize : Bool) :
    ∃ e, (join h algorithm spec left right).extraCondition vectorize = .ok e := by
  rcases extraCondition_join_cases h algorithm spec left right vectorize with
    hnone | ⟨extra, hextra, hresolve⟩
  · exact ⟨none, hnone⟩
  · have hordinals : ∀ i ∈ extra.ordinals,
        i < left.fieldNames.length + right.fieldNames.length := by
      rw [fieldNames, fieldNames, left.schema.length_names, right.schema.length_names]
      exact hfits.1 extra (by simp [hextra])
    obtain ⟨e, he⟩ := Expr.exists_resolveSides_iff.2 hordinals
    exact ⟨some e, by rw [hresolve, he]; rfl⟩

theorem readsBack_of_fits (hfits : spec.Fits left.schema right.schema h.schema) :
    ReadsBack spec (join h algorithm spec left right) := by
  have hcomparators : (join h algorithm spec left right).keyConditions.map
      (List.map KeyCondition.comparator) = spec.comparators := map_comparator_keyConditions hfits
  constructor
  case extra => exact exists_extraCondition hfits
  case in_range =>
    intro ordinal width herror
    rw [herror] at hcomparators
    exact comparators_ne_ordinalOutOfRange ordinal width hcomparators.symm
  case keys =>
    rw [← exists_comparators_iff, ← hcomparators]
    cases (join h algorithm spec left right).keyConditions with
    | error e => exact iff_of_false nofun nofun
    | ok conditions => exact iff_of_true ⟨_, rfl⟩ ⟨_, rfl⟩

theorem WellFormed.readsBack (hp : p.WellFormed)
    (hn : join h algorithm spec left right ∈ p.preorder) :
    ReadsBack spec (join h algorithm spec left right) :=
  readsBack_of_fits (hp _ hn).1

/-- Joins of well-formed plans are the same if their skeletons are. -/
theorem sameJoin_of_skeleton_eq {n n' : Plan} (hp : p.WellFormed) (hq : q.WellFormed)
    (hn : n ∈ p.joins) (hn' : n' ∈ q.joins) (hskeleton : n'.skeleton = n.skeleton) :
    SameJoin n n' := by
  obtain ⟨hmem, h, algorithm, spec, left, right, rfl⟩ := exists_join_of_mem_joins hn
  obtain ⟨hmem', h', algorithm', spec', left', right', rfl⟩ := exists_join_of_mem_joins hn'
  have hparts := hskeleton
  rw [skeleton, skeleton] at hparts
  obtain ⟨-, -, rfl, rfl, -, -⟩ := Skeleton.join.inj hparts
  refine ⟨rfl, hskeleton, ?_⟩
  rw [map_comparator_keyConditions (hp _ hmem).1, map_comparator_keyConditions (hq _ hmem').1]

theorem KeepsSkeleton.sameJoins (hkeeps : KeepsSkeleton p q) (hp : p.WellFormed) :
    List.Forall₂ SameJoin p.joins q.joins := by
  have hall := forall₂_joins_of_skeleton_eq hkeeps.skeleton_eq
  rw [List.forall₂_iff_get] at hall ⊢
  refine ⟨hall.1, fun i hi hi' => ?_⟩
  exact sameJoin_of_skeleton_eq hp hkeeps.wellFormed (List.get_mem _ _) (List.get_mem _ _)
    (hall.2 i hi hi')

end Join

/-- Every join of a constructed plan answers what execution asks it, and so does every join of the
plan that the pass on star columns, the pass on join inputs or a run of the standard passes makes
of it. The resulting plan has the same joins in the same order. On its keys each of them fails
with the same error as before or compares them in the same way. -/
theorem readsBack_of_constructed_or_run {p : Plan} {s : NodeSupply} (hp : p.Constructed s) :
    (∀ h algorithm spec left right, join h algorithm spec left right ∈ p.preorder →
      ReadsBack spec (join h algorithm spec left right)) ∧
    ∀ q s', (p.separateStars.run s = .ok (q, s') ∨ p.alignJoins.run s = .ok (q, s') ∨
        ∃ settings, (Pass.runAll settings Pass.standard p s).outcome = .ok (q, s')) →
      (∀ h algorithm spec left right, join h algorithm spec left right ∈ q.preorder →
        ReadsBack spec (join h algorithm spec left right)) ∧
      List.Forall₂ SameJoin p.joins q.joins := by
  refine ⟨fun h algorithm spec left right hn => hp.wellFormed.readsBack hn, fun q s' hrun => ?_⟩
  have hkeeps : KeepsSkeleton p q := by
    rcases hrun with hstars | hjoins | ⟨settings, hall⟩
    · exact (keepsSkeleton_of_run_separateStars hp hstars).1
    · obtain ⟨R, rfl, hmem⟩ := hp.exists_register
      exact keepsSkeleton_of_run_alignJoins hmem hp.wellFormed hjoins
    · exact Pass.keepsSkeleton_of_outcome_runAll_standard hp hall
  exact ⟨fun h algorithm spec left right hn => hkeeps.wellFormed.readsBack hn,
    hkeeps.sameJoins hp.wellFormed⟩

/-- The standard passes put the right table under other names. -/
theorem readsBack_of_constructed_or_run_joined :
    ∃ q s', (Pass.runAll {} Pass.standard TwinTables.joined ⟨3⟩).outcome = .ok (q, s') ∧
      List.Forall₂ SameJoin TwinTables.joined.joins q.joins ∧
      (∀ h algorithm spec left right, join h algorithm spec left right ∈ q.preorder →
        ReadsBack spec (join h algorithm spec left right)) ∧
      TwinTables.joined.keyConditions.map (List.map KeyCondition.comparator) = .ok [.equals] ∧
      q.keyConditions.map (List.map KeyCondition.render) = .ok ["`id` EQUALS `id0`"] := by
  obtain ⟨-, hpasses⟩ := readsBack_of_constructed_or_run TwinTables.constructed_joined
  obtain ⟨q, s', hrun⟩ : ∃ q s', (Pass.runAll {} Pass.standard TwinTables.joined ⟨3⟩).outcome =
      .ok (q, s') := PlanM.exists_run_of_isOk (s := ⟨3⟩)
    (x := fun s => (Pass.runAll {} Pass.standard TwinTables.joined s).outcome) (by decide +kernel)
  have hkeys : ((Pass.runAll {} Pass.standard TwinTables.joined ⟨3⟩).outcome.bind fun r =>
      r.1.keyConditions.map (List.map KeyCondition.render)) = .ok ["`id` EQUALS `id0`"] := by
    decide +kernel
  rw [hrun] at hkeys
  obtain ⟨hreads, hsame⟩ := hpasses q s' (.inr (.inr ⟨{}, hrun⟩))
  exact ⟨q, s', hrun, hsame, hreads, by decide +kernel, hkeys⟩

end Plan

end QueryPlan
