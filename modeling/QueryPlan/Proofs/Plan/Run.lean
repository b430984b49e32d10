import QueryPlan.Plan.Traversal
import QueryPlan.Proofs.Schema

/-!
# What the functions that make nodes return

For every function that makes a node there is one lemma that says when it succeeds, which
node it returns, and which identities are left. A new node takes the next identity, so a
supply `s` gives the header `s.header schema traits` and leaves `s.rest`. Everything that is
proved about runs uses these lemmas, and no function is opened again.
-/

namespace QueryPlan

namespace NodeSupply

/-- The header of a node that takes the next identity. -/
def header (s : NodeSupply) (schema : Schema) (traits : Traits) : Header :=
  ⟨⟨s.next⟩, schema, traits⟩

/-- What is left when the next identity is taken. -/
def rest (s : NodeSupply) : NodeSupply := ⟨s.next + 1⟩

@[simp] theorem schema_header (s : NodeSupply) (schema : Schema) (traits : Traits) :
    (s.header schema traits).schema = schema := rfl

@[simp] theorem next_rest (s : NodeSupply) : s.rest.next = s.next + 1 := rfl

end NodeSupply

namespace PlanM

variable {α β : Type} {s s' : NodeSupply}

theorem run_bind_eq_ok_iff {x : PlanM α} {f : α → PlanM β} {b : β} :
    (x >>= f).run s = .ok (b, s') ↔
      ∃ a s₁, x.run s = .ok (a, s₁) ∧ (f a).run s₁ = .ok (b, s') := by
  rw [StateT.run_bind]
  cases h : x.run s with
  | error e => simp [bind, Except.bind]
  | ok result =>
      obtain ⟨a, s₁⟩ := result
      constructor
      · intro hf
        exact ⟨a, s₁, rfl, hf⟩
      · rintro ⟨a', s₂, heq, hf⟩
        cases heq
        exact hf

theorem run_pure_eq_ok_iff {a b : α} :
    (pure a : PlanM α).run s = .ok (b, s') ↔ b = a ∧ s' = s := by
  constructor
  · intro h
    cases h
    exact ⟨rfl, rfl⟩
  · rintro ⟨rfl, rfl⟩
    rfl

theorem run_throw_ne_ok {e : PlanError} {b : α} :
    (throw e : PlanM α).run s ≠ .ok (b, s') := by
  intro h
  cases h

theorem run_lift_eq_ok_iff {x : Except PlanError α} {a : α} :
    (liftM x : PlanM α).run s = .ok (a, s') ↔ x = .ok a ∧ s' = s := by
  cases x with
  | error e =>
      constructor
      · intro h
        cases h
      · rintro ⟨h, -⟩
        cases h
  | ok b =>
      constructor
      · intro h
        cases h
        exact ⟨rfl, rfl⟩
      · rintro ⟨h, rfl⟩
        cases h
        rfl

/-- A result that is worked out without the supply leaves the supply alone. -/
theorem run_lift_bind_eq_ok_iff {x : Except PlanError α} {f : α → PlanM β} {b : β} :
    ((liftM x : PlanM α) >>= f).run s = .ok (b, s') ↔
      ∃ a, x = .ok a ∧ (f a).run s = .ok (b, s') := by
  rw [run_bind_eq_ok_iff]
  constructor
  · rintro ⟨a, s₁, hrun, hf⟩
    obtain ⟨hx, hs⟩ := run_lift_eq_ok_iff.1 hrun
    exact ⟨a, hx, hs ▸ hf⟩
  · rintro ⟨a, hx, hf⟩
    exact ⟨a, s, run_lift_eq_ok_iff.2 ⟨hx, rfl⟩, hf⟩

theorem run_check_bind_eq_ok_iff {check : Except PlanError Unit} {x : PlanM β} {b : β} :
    ((liftM check : PlanM Unit) >>= fun _ => x).run s = .ok (b, s') ↔
      check = .ok () ∧ x.run s = .ok (b, s') := by
  rw [run_lift_bind_eq_ok_iff]
  exact ⟨fun ⟨_, hcheck, hx⟩ => ⟨hcheck, hx⟩, fun ⟨hcheck, hx⟩ => ⟨(), hcheck, hx⟩⟩

theorem exists_run_of_isOk {x : PlanM α} (h : (x.run s).isOk = true) :
    ∃ a s', x.run s = .ok (a, s') := by
  cases hx : x.run s with
  | error e => simp [hx, Except.isOk, Except.toBool] at h
  | ok result => exact ⟨result.1, result.2, rfl⟩

end PlanM

namespace Plan

open PlanM

section Topmost

variable {h : Header} {op : Transform} {input left right : Plan} {algorithm : JoinAlgorithm}
  {spec : JoinSpec}

@[simp] theorem schema_transform : (transform h op input).schema = h.schema := rfl

@[simp] theorem schema_join : (join h algorithm spec left right).schema = h.schema := rfl

end Topmost

variable {s s' : NodeSupply} {p : Plan}

theorem checkOrdinals_eq_ok_iff {ordinals : List Nat} {width : Nat} :
    checkOrdinals ordinals width = .ok () ↔ ∀ i ∈ ordinals, i < width := by
  rw [checkOrdinals]
  cases h : ordinals.find? fun i => width ≤ i with
  | none => simpa using h
  | some i =>
      have hi : width ≤ i := by simpa using List.find?_some h
      have hmem := List.mem_of_find?_eq_some h
      simp only [reduceCtorEq, false_iff]
      exact fun hall => absurd (hall i hmem) (Nat.not_lt.2 hi)

theorem checkExprs_eq_ok_iff {exprs : List Expr} {width : Nat} :
    checkExprs exprs width = .ok () ↔ ∀ e ∈ exprs, ∀ i ∈ e.ordinals, i < width := by
  rw [checkExprs, checkOrdinals_eq_ok_iff]
  constructor
  · intro h e he i hi
    exact h i (List.mem_flatMap.2 ⟨e, he, hi⟩)
  · intro h i hi
    obtain ⟨e, he, hi⟩ := List.mem_flatMap.1 hi
    exact h e he i hi

theorem checkKeys_eq_ok_iff {leftWidth rightWidth : Nat} {keys : List (Nat × Nat)} :
    checkKeys leftWidth rightWidth keys = .ok () ↔
      ∀ k ∈ keys, k.1 < leftWidth ∧ k.2 < rightWidth := by
  induction keys with
  | nil => simp [checkKeys]
  | cons k rest ih =>
      obtain ⟨l, r⟩ := k
      rw [checkKeys, List.forall_mem_cons, ← ih]
      have hl : checkOrdinals [l] leftWidth = .ok () ↔ l < leftWidth := by
        rw [checkOrdinals_eq_ok_iff, List.forall_mem_singleton]
      have hr : checkOrdinals [r] rightWidth = .ok () ↔ r < rightWidth := by
        rw [checkOrdinals_eq_ok_iff, List.forall_mem_singleton]
      rw [← hl, ← hr]
      cases checkOrdinals [l] leftWidth with
      | error e => simp [bind, Except.bind]
      | ok _ =>
          cases checkOrdinals [r] rightWidth with
          | error e => simp [bind, Except.bind]
          | ok _ => simp [bind, Except.bind]

/-- The grouping fields, then the fields of the aggregates. -/
def aggregateFields (input : Schema) (groupBy : List Nat) (aggregates : List Aggregate) :
    List Field :=
  groupBy.filterMap input.field? ++ aggregates.map fun a => ⟨a.name, a.type⟩

theorem aggregateSchema_eq_ok_iff {input schema : Schema} {groupBy : List Nat}
    {aggregates : List Aggregate} :
    aggregateSchema input groupBy aggregates = .ok schema ↔
      (∀ i ∈ groupBy, i < input.width) ∧ (∀ a ∈ aggregates, ∀ i ∈ a.args, i < input.width) ∧
        schema = ⟨aggregateFields input groupBy aggregates⟩ := by
  have hcheck : checkOrdinals (groupBy ++ aggregates.flatMap Aggregate.args) input.width =
      .ok () ↔ (∀ i ∈ groupBy, i < input.width) ∧
        ∀ a ∈ aggregates, ∀ i ∈ a.args, i < input.width := by
    rw [checkOrdinals_eq_ok_iff, List.forall_mem_append, List.forall_mem_flatMap]
  rw [aggregateSchema, ← and_assoc, ← hcheck]
  cases checkOrdinals (groupBy ++ aggregates.flatMap Aggregate.args) input.width with
  | error e => simp [bind, Except.bind]
  | ok _ => simp [bind, Except.bind, pure, Except.pure, aggregateFields, eq_comm]

theorem run_newSource_eq_ok_iff {op : Source} {schema : Schema} {traits : Traits} :
    (newSource op schema traits).run s = .ok (p, s') ↔
      p = .source (s.header schema traits) op ∧ s' = s.rest := by
  constructor
  · intro h
    cases h
    exact ⟨rfl, rfl⟩
  · rintro ⟨rfl, rfl⟩
    rfl

theorem run_newTransform_eq_ok_iff {op : Transform} {schema : Schema} {traits : Traits}
    {input : Plan} :
    (newTransform op schema traits input).run s = .ok (p, s') ↔
      p = .transform (s.header schema traits) op input ∧ s' = s.rest := by
  constructor
  · intro h
    cases h
    exact ⟨rfl, rfl⟩
  · rintro ⟨rfl, rfl⟩
    rfl

theorem run_newJoin_eq_ok_iff {algorithm : JoinAlgorithm} {spec : JoinSpec} {schema : Schema}
    {traits : Traits} {left right : Plan} :
    (newJoin algorithm spec schema traits left right).run s = .ok (p, s') ↔
      p = .join (s.header schema traits) algorithm spec left right ∧ s' = s.rest := by
  constructor
  · intro h
    cases h
    exact ⟨rfl, rfl⟩
  · rintro ⟨rfl, rfl⟩
    rfl

theorem run_filter_eq_ok_iff {input : Plan} {predicate : Expr} :
    (filter input predicate).run s = .ok (p, s') ↔
      (∀ i ∈ predicate.ordinals, i < input.width) ∧
        p = .transform (s.header input.schema input.traits) (.filter predicate) input ∧
        s' = s.rest := by
  rw [filter, run_check_bind_eq_ok_iff, run_newTransform_eq_ok_iff, checkExprs_eq_ok_iff,
    List.forall_mem_singleton]

theorem ofExprs_eq_ok_iff {exprs : List Expr} {names : List String} {schema : Schema} :
    Schema.ofExprs exprs names = .ok schema ↔
      exprs.length = names.length ∧ schema = .ofNamesTypes names (exprs.map Expr.type) := by
  rw [Schema.ofExprs]
  by_cases hlength : exprs.length = names.length
  · simp [hlength, eq_comm]
  · simp [hlength]

theorem run_projectWith_eq_ok_iff {allowDuplicates : Bool} {input : Plan} {exprs : List Expr}
    {names : List String} :
    (projectWith allowDuplicates input exprs names).run s = .ok (p, s') ↔
      (∀ e ∈ exprs, ∀ i ∈ e.ordinals, i < input.width) ∧
        (allowDuplicates = false → Names.distinct names = true) ∧
        exprs.length = names.length ∧
        p = .transform (s.header (.ofNamesTypes names (exprs.map Expr.type)) input.traits)
          (.project exprs allowDuplicates) input ∧ s' = s.rest := by
  have hproject : ((liftM (Schema.ofExprs exprs names) : PlanM Schema) >>= fun schema =>
      newTransform (.project exprs allowDuplicates) schema input.traits input).run s =
        .ok (p, s') ↔ exprs.length = names.length ∧
          p = .transform (s.header (.ofNamesTypes names (exprs.map Expr.type)) input.traits)
            (.project exprs allowDuplicates) input ∧ s' = s.rest := by
    rw [run_lift_bind_eq_ok_iff]
    simp only [ofExprs_eq_ok_iff, run_newTransform_eq_ok_iff, and_assoc, exists_and_left,
      exists_eq_left]
  rw [projectWith, run_check_bind_eq_ok_iff, checkExprs_eq_ok_iff, ← hproject]
  refine and_congr_right fun _ => ?_
  by_cases hnames : (allowDuplicates || Names.distinct names) = true
  · have himp : allowDuplicates = false → Names.distinct names = true := by
      cases allowDuplicates <;> simp_all
    rw [if_pos hnames]
    exact (and_iff_right himp).symm
  · have himp : ¬ (allowDuplicates = false → Names.distinct names = true) := by
      cases allowDuplicates <;> simp_all
    rw [if_neg hnames, run_bind_eq_ok_iff]
    exact iff_of_false (fun ⟨_, _, hthrow, _⟩ => run_throw_ne_ok hthrow) fun h => himp h.1

/-- An identity projection is refused if two of its names are alike. -/
theorem run_project_identity_eq_error {input : Plan} {names : List String}
    (hclash : Names.distinct names = false) :
    (input.project input.schema.identity names).run s = .error (.namesCollide names) := by
  have hexprs : checkExprs input.schema.identity input.width = .ok () :=
    checkExprs_eq_ok_iff.2 fun e => Schema.lt_width_of_mem_identity
  rw [project, projectWith, hexprs, hclash]
  rfl

theorem run_joinWith_eq_ok_iff {algorithm : JoinAlgorithm} {spec : JoinSpec}
    {left right : Plan} :
    (joinWith algorithm spec left right).run s = .ok (p, s') ↔
      (∀ e ∈ spec.condition :: spec.extra.toList, ∀ i ∈ e.ordinals,
          i < left.width + right.width) ∧
        (∀ k ∈ spec.keys, k.1 < left.width ∧ k.2 < right.width) ∧
        p = .join (s.header (.join left.schema right.schema spec.joinType)
          left.traits.forgetDistribution) algorithm spec left right ∧ s' = s.rest := by
  rw [joinWith, run_check_bind_eq_ok_iff, run_check_bind_eq_ok_iff, run_newJoin_eq_ok_iff,
    checkExprs_eq_ok_iff, checkKeys_eq_ok_iff]

/-- A join whose references and keys are there is made, over whatever row its inputs join to. -/
theorem run_joinWith_of_join_eq {algorithm : JoinAlgorithm} {spec : JoinSpec} {left right : Plan}
    {row : Schema}
    (hordinals : ∀ e ∈ spec.condition :: spec.extra.toList, ∀ i ∈ e.ordinals,
      i < left.width + right.width)
    (hkeys : ∀ k ∈ spec.keys, k.1 < left.width ∧ k.2 < right.width)
    (hrow : Schema.join left.schema right.schema spec.joinType = row) :
    (joinWith algorithm spec left right).run s =
      .ok (.join (s.header row left.traits.forgetDistribution) algorithm spec left right,
        s.rest) :=
  run_joinWith_eq_ok_iff.2 ⟨hordinals, hkeys, by rw [hrow], rfl⟩

theorem run_aggregate_eq_ok_iff {input : Plan} {groupBy : List Nat}
    {aggregates : List Aggregate} :
    (aggregate input groupBy aggregates).run s = .ok (p, s') ↔
      (∀ i ∈ groupBy, i < input.width) ∧ (∀ a ∈ aggregates, ∀ i ∈ a.args, i < input.width) ∧
        p = .transform (s.header ⟨aggregateFields input.schema groupBy aggregates⟩ .unknown)
          (.aggregate groupBy aggregates) input ∧ s' = s.rest := by
  rw [aggregate, run_lift_bind_eq_ok_iff]
  simp only [aggregateSchema_eq_ok_iff, run_newTransform_eq_ok_iff, and_assoc, exists_and_left,
    exists_eq_left]
  exact Iff.rfl

theorem run_sort_eq_ok_iff {input : Plan} {order : List SortKey} :
    (sort input order).run s = .ok (p, s') ↔
      (∀ k ∈ order, k.ordinal < input.width) ∧
        p = .transform (s.header input.schema (input.traits.sortedBy order)) (.sort order)
          input ∧ s' = s.rest := by
  rw [sort, run_check_bind_eq_ok_iff, run_newTransform_eq_ok_iff, checkOrdinals_eq_ok_iff,
    List.forall_mem_map]

theorem run_withInputs_transform_eq_ok_iff {h : Header} {op : Transform}
    {input input' : Plan} :
    ((Plan.transform h op input).withInputs [input']).run s = .ok (p, s') ↔
      ∃ schema, derivedSchema h.schema op input'.schema = .ok schema ∧
        p = .transform (s.header schema h.traits) op input' ∧ s' = s.rest := by
  rw [withInputs, run_lift_bind_eq_ok_iff]
  simp only [run_newTransform_eq_ok_iff]

theorem run_withInputs_join_eq_ok_iff {h : Header} {algorithm : JoinAlgorithm} {spec : JoinSpec}
    {left right left' right' : Plan} :
    ((Plan.join h algorithm spec left right).withInputs [left', right']).run s = .ok (p, s') ↔
      p = .join (s.header (.join left'.schema right'.schema spec.joinType)
        h.traits.forgetDistribution) algorithm spec left' right' ∧ s' = s.rest :=
  run_newJoin_eq_ok_iff

theorem run_keepOver_eq_ok_iff {inputs : List Plan} {q : Plan} :
    (p.keepOver inputs).run s = .ok (q, s') ↔
      (p.hasInputs inputs = true ∧ q = p ∧ s' = s) ∨
        (p.hasInputs inputs = false ∧ (p.withInputs inputs).run s = .ok (q, s')) := by
  rw [keepOver]
  cases p.hasInputs inputs with
  | true => simpa using run_pure_eq_ok_iff
  | false => simp

end Plan

end QueryPlan
