import QueryPlan.Proofs.StarColumns.Decisions
import QueryPlan.Proofs.StarColumns.Progress

/-!
# When the star columns cannot be told apart

A prefix tells the star columns of two leaves apart. Within one leaf it may make a name like
another: the columns `**` and `T0$**` of the first leaf that gets a prefix are both called
`T0$**` then. The projection over such a leaf is refused, and with it the plan.

Nothing else is refused. Every other node is put over inputs that have the types they had, a
projection has its names told apart, and a screen with more than one column may repeat names.
So which leaf ends the walk, and with which names, is said of the plan before the walk: it is
the first leaf with a table id whose names clash. One induction along the plan shows that the
walk succeeds where there is no such leaf, and one that it comes to the first one there is.
-/

namespace QueryPlan

namespace StarM

variable {α β : Type} {σ σ₁ : StarState} {s s₁ : NodeSupply} {x : StarM α} {f : α → StarM β}
  {e : PlanError}

/-- The work, begun with the decisions `σ` and the identities `s`, is refused. -/
def Fails (x : StarM α) (σ : StarState) (s : NodeSupply) (e : PlanError) : Prop :=
  (x.run σ).run s = .error e

theorem Fails.bind (hx : Fails x σ s e) : Fails (x >>= f) σ s e := by
  rw [Fails, StateT.run_bind, StateT.run_bind, hx]
  rfl

theorem fails_lift {x : PlanM α} (hx : x.run s = .error e) :
    Fails (liftM x : StarM α) σ s e := by
  have hlift : (liftM x : StarM α).run σ = x >>= fun a => pure (a, σ) := rfl
  rw [Fails, hlift, StateT.run_bind, hx]
  rfl

theorem fails_get_bind_iff {f : StarState → StarM β} :
    Fails (get >>= f) σ s e ↔ Fails (f σ) σ s e :=
  Iff.rfl

theorem fails_set_bind_iff {τ : StarState} {x : StarM β} :
    Fails ((set τ : StarM PUnit) >>= fun _ => x) σ s e ↔ Fails x τ s e :=
  Iff.rfl

theorem Runs.bind_fails {a : α} (hx : Runs x σ s a σ₁ s₁) (hf : Fails (f a) σ₁ s₁ e) :
    Fails (x >>= f) σ s e := by
  rw [Fails, StateT.run_bind, StateT.run_bind, hx]
  exact hf

end StarM

namespace StarColumn

open StarM

/-- The names that a leaf gets under its table id, if two of them are alike. -/
def clash? : Option Nat × Plan → Option (List String)
  | (some k, leaf) =>
    if Names.distinct (withPrefixes k leaf.fieldNames) then none
    else some (withPrefixes k leaf.fieldNames)
  | (none, _) => none

/-- The names at the first leaf of the plan that cannot get its prefix, if the walk comes to
the plan with the decisions `σ`. -/
def firstClash? (σ : StarState) (p : Plan) : Option (List String) :=
  ((σ.nextIds p).zip p.leaves).findSome? clash?

variable {R : Register} {σ : StarState} {s : NodeSupply} {p : Plan} {h : Header}
  {names : List String}

theorem clash?_eq_none_iff {k : Nat} {leaf : Plan} :
    clash? (some k, leaf) = none ↔ Names.distinct (withPrefixes k leaf.fieldNames) = true := by
  rw [clash?]
  cases Names.distinct (withPrefixes k leaf.fieldNames) with
  | true => simp
  | false => simp

theorem clash?_eq_some_iff {id : Option Nat} {leaf : Plan} :
    clash? (id, leaf) = some names ↔ ∃ k, id = some k ∧
      Names.distinct names = false ∧ names = withPrefixes k leaf.fieldNames := by
  cases id with
  | none => simp [clash?]
  | some k =>
      rw [clash?]
      cases hdistinct : Names.distinct (withPrefixes k leaf.fieldNames) with
      | true =>
          refine iff_of_false (by simp) ?_
          rintro ⟨k', hk, hclash, rfl⟩
          cases hk
          rw [hdistinct] at hclash
          cases hclash
      | false =>
          rw [if_neg Bool.false_ne_true, Option.some.injEq]
          constructor
          · rintro rfl
            exact ⟨k, rfl, hdistinct, rfl⟩
          · rintro ⟨k', hk, -, rfl⟩
            cases hk
            rfl

section Sites

theorem firstClash?_source {op : Source} :
    firstClash? σ (.source h op) =
      if σ.prefixNeeded && inRow h.schema then clash? (some σ.prefixedLeaves, .source h op)
      else none := by
  have hids : σ.nextIds (.source h op) =
      [if σ.prefixNeeded && inRow h.schema then some σ.prefixedLeaves else none] := by
    have hmarks : leafMarks σ.prefixNeeded (Plan.source h op).preorder =
        [inRow h.schema && σ.prefixNeeded] := rfl
    rw [StarState.nextIds, hmarks, Bool.and_comm]
    cases σ.prefixNeeded && inRow h.schema <;> rfl
  rw [firstClash?, hids, Plan.leaves_source]
  cases σ.prefixNeeded && inRow h.schema with
  | true =>
      rw [if_pos rfl, if_pos rfl, List.zip_cons_cons, List.findSome?_cons]
      cases clash? (some σ.prefixedLeaves, .source h op) <;> rfl
  | false => rfl

theorem firstClash?_transform {op : Transform} {input : Plan} :
    firstClash? σ (.transform h op input) =
      firstClash? (σ.entering (.transform h op input)) input := by
  rw [firstClash?, StarState.nextIds_transform, Plan.leaves_transform]
  rfl

/-- The walk comes to the leaves on the left first. -/
theorem firstClash?_join {algorithm : JoinAlgorithm} {spec : JoinSpec} {left right : Plan} :
    firstClash? σ (.join h algorithm spec left right) =
      (firstClash? (σ.entering (.join h algorithm spec left right)) left).or
        (firstClash? (past (σ.entering (.join h algorithm spec left right)) left) right) := by
  rw [firstClash?, nextIds_join, Plan.leaves_join,
    List.zip_append (StarState.length_nextIds _ _), List.findSome?_append]
  rfl

theorem Becomes.firstClash?_eq {σ' : StarState} {s' : NodeSupply} {q : Plan}
    (hwalk : Becomes σ s p q σ' s') (r : Plan) : firstClash? σ' r = firstClash? (past σ p) r := by
  rw [firstClash?, hwalk.nextIds_eq, firstClash?]

end Sites

theorem fails_leave_leaf {op : Source} (hneeded : (σ.prefixNeeded && inRow h.schema) = true)
    (hclash : Names.distinct (withPrefixes σ.prefixedLeaves h.schema.names) = false) :
    Fails (leave (.source h op) []) σ s
      (.namesCollide (withPrefixes σ.prefixedLeaves h.schema.names)) := by
  rw [leave, leaveLeaf, fails_get_bind_iff, Plan.schema, Plan.header, if_pos hneeded,
    fails_set_bind_iff]
  refine fails_lift ?_
  exact @Plan.run_project_identity_eq_error _ (.source h op) _ hclash

/-- The walk over a plan without a clash succeeds. -/
theorem yields_walk (hp : p ∈ R.nodes) (hfits : p.WellFormed) (hnone : firstClash? σ p = none) :
    Yields R σ (p.walk ⟨enter, leave⟩) fun q _ => q.schema.types = p.schema.types := by
  induction p generalizing R σ with
  | source h op =>
      have hσ : σ.entering (.source h op) = σ := by simp [StarState.entering, showsNeed]
      refine yields_enter_bind (p := .source h op) ?_
      rw [hσ]
      refine yields_leave_leaf hp fun hneeded hrow => ?_
      rw [firstClash?_source, hneeded, hrow, Bool.and_self, if_pos rfl] at hnone
      exact clash?_eq_none_iff.1 hnone
  | transform h op input ih =>
      obtain ⟨hnode, hinput⟩ := Plan.wellFormed_transform.1 hfits
      have hbelow := R.input_mem _ hp input (by simp [Plan.inputs])
      rw [firstClash?_transform] at hnone
      refine yields_enter_bind (p := .transform h op input) ?_
      refine (ih hbelow hinput hnone).bind ?_
      intro input' σ₁ R₁ hgrows hmem htypes
      have hp₁ := hgrows.nodes_subset hp
      have hinner : isInner op = true → Yields R₁ σ₁ (leave (.transform h op input) [input'])
          fun q _ => q.schema.types = h.schema.types := fun hop =>
        (yields_leave_of_isInner hop hp₁ hmem hnode htypes).mono fun q σ' hq => hq.2.1
      cases op with
      | filter predicate => exact hinner rfl
      | aggregate groupBy aggregates => exact hinner rfl
      | sort order => exact hinner rfl
      | limit offset count => exact hinner rfl
      | exchange distribution => exact hinner rfl
      | writer target => exact yields_leave_writer hp₁ hmem
      | screen =>
          have hrow : h.schema = input.schema := hnode
          exact yields_leave_screen hp₁ hmem (hrow ▸ htypes)
      | project exprs allowDuplicates =>
          exact (yields_leave_project hmem hnode htypes).mono fun q σ' hq => hq.2.1
  | join h algorithm spec left right ihl ihr =>
      obtain ⟨⟨hnode, -⟩, hleft, hright⟩ := Plan.wellFormed_join.1 hfits
      have hlbelow := R.input_mem _ hp left (by simp [Plan.inputs])
      have hrbelow := R.input_mem _ hp right (by simp [Plan.inputs])
      rw [firstClash?_join, Option.or_eq_none_iff] at hnone
      refine yields_enter_bind (p := .join h algorithm spec left right) ?_
      obtain ⟨left', σ₁, R₁, hlrun, hgrows₁, hleft', hltypes⟩ := ihl hlbelow hleft hnone.1
      have hlwalk := (becomes_of_runs_walk hlbelow hlrun).1
      refine Runs.bind_yields hlrun hgrows₁ ?_
      rw [← hlwalk.firstClash?_eq] at hnone
      refine (ihr (hgrows₁.nodes_subset hrbelow) hright hnone.2).bind ?_
      intro right' σ₂ R₂ hgrows₂ hright' hrtypes
      refine (yields_leave_join (hgrows₂.nodes_subset (hgrows₁.nodes_subset hp))
        (hgrows₂.nodes_subset hleft') hright' hnode hltypes hrtypes).mono ?_
      exact fun q σ' hq => hq.2.1

/-- The walk over a plan with a clash is refused at the first one. -/
theorem fails_walk (hp : p ∈ R.nodes) (hfits : p.WellFormed)
    (hsome : firstClash? σ p = some names) :
    Fails (p.walk ⟨enter, leave⟩) σ R.supply (.namesCollide names) := by
  induction p generalizing R σ with
  | source h op =>
      have hσ : σ.entering (.source h op) = σ := by simp [StarState.entering, showsNeed]
      refine (runs_enter (.source h op) σ _).bind_fails ?_
      rw [firstClash?_source] at hsome
      by_cases hboth : (σ.prefixNeeded && inRow h.schema) = true
      · rw [if_pos hboth, clash?_eq_some_iff] at hsome
        obtain ⟨k, hk, hclash, rfl⟩ := hsome
        cases hk
        rw [hσ]
        exact fails_leave_leaf hboth hclash
      · rw [if_neg hboth] at hsome
        cases hsome
  | transform h op input ih =>
      have hbelow := R.input_mem _ hp input (by simp [Plan.inputs])
      rw [firstClash?_transform] at hsome
      refine (runs_enter (.transform h op input) σ _).bind_fails ?_
      exact (ih hbelow (Plan.wellFormed_transform.1 hfits).2 hsome).bind
  | join h algorithm spec left right ihl ihr =>
      obtain ⟨-, hleft, hright⟩ := Plan.wellFormed_join.1 hfits
      have hlbelow := R.input_mem _ hp left (by simp [Plan.inputs])
      have hrbelow := R.input_mem _ hp right (by simp [Plan.inputs])
      -- The first clash is on the left, or there is none on the left and the walk gets past it.
      rw [firstClash?_join, Option.or_eq_some_iff] at hsome
      refine (runs_enter (.join h algorithm spec left right) σ _).bind_fails ?_
      rcases hsome with hsome | ⟨hnone, hsome⟩
      · exact (ihl hlbelow hleft hsome).bind
      · obtain ⟨left', σ₁, R₁, hlrun, hgrows₁, -, -⟩ := yields_walk hlbelow hleft hnone
        have hlwalk := (becomes_of_runs_walk hlbelow hlrun).1
        rw [← hlwalk.firstClash?_eq] at hsome
        refine hlrun.bind_fails ?_
        exact (ihr (hgrows₁.nodes_subset hrbelow) hright hsome).bind

/-- The leaf at the place `i` from the left cannot get its prefix: it has a star column, an
ambiguous node comes before it, and under the number of the leaves before it of which the same
holds its names are `names`, of which two are alike. -/
def ClashesAt (p : Plan) (i : Nat) (names : List String) : Prop :=
  ∃ before leaf, p.leafSites[i]? = some (before, leaf) ∧ inRow leaf.schema = true ∧
    (∃ n ∈ before, isAmbiguous n = true) ∧
    names = withPrefixes ((p.leafSites.take i).countP needsPrefix) leaf.fieldNames ∧
    ¬ (names.map Names.fold).Nodup

theorem findSome?_eq_some_iff_getElem? {α β : Type} {f : α → Option β} {as : List α} {b : β} :
    as.findSome? f = some b ↔
      ∃ i : Nat, as[i]?.bind f = some b ∧ ∀ j < i, as[j]?.bind f = none := by
  rw [List.findSome?_eq_some_iff]
  constructor
  · rintro ⟨before, a, after, rfl, ha, hbefore⟩
    refine ⟨before.length, by simp [ha], fun j hj => ?_⟩
    rw [List.getElem?_append_left hj, List.getElem?_eq_getElem hj]
    exact hbefore _ (List.getElem_mem hj)
  · rintro ⟨i, hi, hbefore⟩
    obtain ⟨a, ha, hf⟩ := Option.bind_eq_some_iff.1 hi
    obtain ⟨hlt, rfl⟩ := List.getElem?_eq_some_iff.1 ha
    refine ⟨as.take i, as[i], as.drop (i + 1), by simp, hf, fun a hmem => ?_⟩
    obtain ⟨j, hj, rfl⟩ := List.mem_take_iff_getElem.1 hmem
    have hnone := hbefore j (by omega)
    rwa [List.getElem?_eq_getElem (by omega)] at hnone

/-- The table id of a leaf is the number of leaves before it that need a prefix. -/
theorem getElem?_tableIds {i : Nat} {before : List Plan} {leaf : Plan}
    (hsite : p.leafSites[i]? = some (before, leaf)) :
    (tableIds p)[i]? = some (if needsPrefix (before, leaf) then
      some ((p.leafSites.take i).countP needsPrefix) else none) := by
  rw [tableIds, getElem?_numberFrom, List.getElem?_map, hsite, Nat.zero_add, ← List.map_take,
    List.count_eq_countP, List.countP_map]
  simp [Function.comp_def]

theorem bind_clash?_eq_some_iff {i : Nat} :
    ((tableIds p).zip p.leaves)[i]?.bind clash? = some names ↔ ClashesAt p i names := by
  have hdistinct : Names.distinct names = false ↔ ¬ (names.map Names.fold).Nodup := by
    rw [← Names.distinct_iff, Bool.not_eq_true]
  have hneeds : ∀ {before : List Plan} {leaf : Plan}, needsPrefix (before, leaf) = true ↔
      inRow leaf.schema = true ∧ ∃ n ∈ before, isAmbiguous n = true := by
    intro before leaf
    rw [needsPrefix, Bool.and_eq_true, List.any_eq_true]
  rw [Option.bind_eq_some_iff]
  constructor
  · rintro ⟨⟨id, _⟩, hat, hclash⟩
    obtain ⟨hid, hleaf⟩ := List.getElem?_zip_eq_some.1 hat
    obtain ⟨k, rfl, hnames, rfl⟩ := clash?_eq_some_iff.1 hclash
    rw [← Plan.map_snd_leafSites, List.getElem?_map, Option.map_eq_some_iff] at hleaf
    obtain ⟨⟨before, leaf⟩, hsite, rfl⟩ := hleaf
    rw [getElem?_tableIds hsite, Option.some.injEq] at hid
    by_cases hneeded : needsPrefix (before, leaf) = true
    · rw [if_pos hneeded] at hid
      cases hid
      exact ⟨before, leaf, hsite, (hneeds.1 hneeded).1, (hneeds.1 hneeded).2, rfl,
        hdistinct.1 hnames⟩
    · rw [if_neg hneeded] at hid
      cases hid
  · rintro ⟨before, leaf, hsite, hrow, hbefore, rfl, hclash⟩
    refine ⟨(some _, leaf), List.getElem?_zip_eq_some.2 ⟨?_, ?_⟩,
      clash?_eq_some_iff.2 ⟨_, rfl, hdistinct.2 hclash, rfl⟩⟩
    · rw [getElem?_tableIds hsite, if_pos (hneeds.2 ⟨hrow, hbefore⟩)]
    · rw [← Plan.map_snd_leafSites, List.getElem?_map, hsite]
      rfl

theorem firstClash?_start_eq_some_iff :
    firstClash? {} p = some names ↔
      ∃ i, ClashesAt p i names ∧ ∀ j < i, ∀ names', ¬ ClashesAt p j names' := by
  rw [firstClash?, ← StarState.tableIds_eq_nextIds, findSome?_eq_some_iff_getElem?]
  simp only [← bind_clash?_eq_some_iff, Option.eq_none_iff_forall_ne_some, ne_eq]

/-- If a leaf clashes, there is a first one. -/
theorem exists_firstClash?_iff :
    (∃ names, firstClash? {} p = some names) ↔ ∃ i names, ClashesAt p i names := by
  constructor
  · rintro ⟨names, hfirst⟩
    obtain ⟨i, hat, -⟩ := firstClash?_start_eq_some_iff.1 hfirst
    exact ⟨i, names, hat⟩
  · rintro ⟨i, names, hat⟩
    obtain ⟨site, hsite, hclash⟩ := Option.bind_eq_some_iff.1 (bind_clash?_eq_some_iff.2 hat)
    rw [← Option.isSome_iff_exists, firstClash?, ← StarState.tableIds_eq_nextIds,
      List.findSome?_isSome_iff]
    exact ⟨site, List.mem_of_getElem? hsite, Option.isSome_iff_exists.2 ⟨names, hclash⟩⟩

theorem run_separateStars_of_fails_walk {e : PlanError}
    (hfails : Fails (p.walk ⟨enter, leave⟩) {} s e) : p.separateStars.run s = .error e := by
  have hwith : p.separateStarsWith.run s = .error e := hfails
  rw [Plan.separateStars, StateT.run_bind, hwith]
  rfl

/-- The pass is refused at the first leaf that clashes, and only there. -/
theorem run_separateStars_eq_error_iff_firstClash? {e : PlanError} (hp : p.Constructed s) :
    p.separateStars.run s = .error e ↔
      ∃ names, firstClash? {} p = some names ∧ e = .namesCollide names := by
  obtain ⟨R, rfl, hmem⟩ := hp.exists_register
  cases hfirst : firstClash? {} p with
  | none =>
      obtain ⟨q, σ, R', hrun, -⟩ := yields_walk hmem hp.wellFormed hfirst
      have hwith : p.separateStars.run R.supply = .ok (q, R'.supply) :=
        PlanM.run_bind_eq_ok_iff.2 ⟨(q, σ), R'.supply, hrun, rfl⟩
      rw [hwith]
      simp
  | some names =>
      have herror := run_separateStars_of_fails_walk (fails_walk hmem hp.wellFormed hfirst)
      rw [herror]
      simp [eq_comm]

end StarColumn

open StarColumn in
/-- The pass on star columns fails on a constructed plan just if a leaf with a star column that
an ambiguous node comes before has two names alike under its prefix, and it fails with the
names of the first such leaf. -/
theorem Plan.run_separateStars_eq_error_iff {p : Plan} {s : NodeSupply} (hp : p.Constructed s) :
    ((∃ e, p.separateStars.run s = .error e) ↔ ∃ i names, ClashesAt p i names) ∧
      ∀ e, p.separateStars.run s = .error e ↔
        ∃ i names, ClashesAt p i names ∧ (∀ j < i, ∀ names', ¬ ClashesAt p j names') ∧
          e = .namesCollide names := by
  have herror : ∀ e, p.separateStars.run s = .error e ↔
      ∃ names, firstClash? {} p = some names ∧ e = .namesCollide names := fun e =>
    run_separateStars_eq_error_iff_firstClash? hp
  constructor
  · rw [← exists_firstClash?_iff]
    constructor
    · rintro ⟨e, he⟩
      obtain ⟨names, hfirst, -⟩ := (herror e).1 he
      exact ⟨names, hfirst⟩
    · rintro ⟨names, hfirst⟩
      exact ⟨_, (herror _).2 ⟨names, hfirst, rfl⟩⟩
  · intro e
    rw [herror]
    constructor
    · rintro ⟨names, hfirst, he⟩
      obtain ⟨i, hat, hbefore⟩ := firstClash?_start_eq_some_iff.1 hfirst
      exact ⟨i, names, hat, hbefore, he⟩
    · rintro ⟨i, names, hat, hbefore, he⟩
      exact ⟨names, firstClash?_start_eq_some_iff.2 ⟨i, hat, hbefore⟩, he⟩

/-! A table whose second column has the name that the first one is to get. -/

namespace TakenName

def row : Schema := ⟨[⟨"**", .utf8⟩, ⟨"T0$**", .utf8⟩]⟩

def table : Plan := .source ⟨⟨0⟩, row, .unknown⟩ (.scan ⟨"db", "a"⟩)

def limited : Plan := .transform ⟨⟨1⟩, row, .unknown⟩ (.limit 0 10) table

theorem constructed_limited : limited.Constructed ⟨2⟩ := by
  have htable : Built [table] ⟨1⟩ :=
    (Built.start ⟨0⟩).scan ⟨"db", "a"⟩ row
  have hlimited : Built [limited, table] ⟨2⟩ :=
    htable.over (.limit table 0 10) rfl rfl
  exact ⟨_, hlimited, List.mem_cons_self⟩

theorem run_separateStars_eq_error_iff_limited :
    limited.separateStars.run ⟨2⟩ = .error (.namesCollide ["T0$**", "T0$**"]) := by
  obtain ⟨-, herror⟩ := Plan.run_separateStars_eq_error_iff constructed_limited
  have hnames : ["T0$**", "T0$**"] = StarColumn.withPrefixes 0 table.fieldNames := by
    decide +kernel
  have hclash : StarColumn.ClashesAt limited 0 ["T0$**", "T0$**"] :=
    ⟨[limited], table, rfl, by decide, ⟨limited, List.mem_singleton_self _, by decide⟩, hnames,
      by simp⟩
  exact (herror _).2 ⟨0, _, hclash, fun j hj => absurd hj (Nat.not_lt_zero j), rfl⟩

end TakenName

end QueryPlan
