import QueryPlan.Form.Operator
import QueryPlan.Proofs.Form.Expr
import QueryPlan.Proofs.Plan.Organisation

/-!
# Operators that are read back

An operator is stored under the name of its kind, and the kind tells how the contents are read. What
an operator holds beside names and types are expressions, ordinals and counts. It is read back just
if the expressions are in range and the ordinals and counts are below the bound. Schemas and key
conditions hold none of these, and they are always read back.

A sort order and the extra condition of a join may be lacking, and null is stored for what is
lacking. No order and no expression is stored as null itself, so what is there is not taken for
lacking.
-/

namespace QueryPlan

open Storable

/-- The ordinals of the keys are below the bound, and the expressions are in range. -/
def JoinSpec.InRange (s : JoinSpec) : Prop :=
  s.condition.InRange ∧ (∀ key ∈ s.keys, key.1 < ordinalBound ∧ key.2 < ordinalBound) ∧
    ∀ e ∈ s.extra, e.InRange

/-- Every ordinal and every count of the operator is below the bound, and its expressions are in
range. -/
def Operator.InRange : Operator → Prop
  | .source (.scan _) => True
  | .source (.values rows) => rows < ordinalBound
  | .transform (.filter predicate) => predicate.InRange
  | .transform (.project exprs _) => ∀ e ∈ exprs, e.InRange
  | .transform (.aggregate groupBy aggregates) =>
    (∀ i ∈ groupBy, i < ordinalBound) ∧ ∀ a ∈ aggregates, ∀ i ∈ a.args, i < ordinalBound
  | .transform (.sort order) => ∀ k ∈ order, k.ordinal < ordinalBound
  | .transform (.limit offset count) => offset < ordinalBound ∧ count < ordinalBound
  | .transform (.exchange distribution) => ∀ i ∈ distribution.ordinals, i < ordinalBound
  | .transform (.writer _) | .transform .screen => True
  | .join _ spec => spec.InRange

namespace Storable

theorem restored_ordinals {is : List Nat} : Restored is ↔ ∀ i ∈ is, i < ordinalBound := by
  simp only [restored_list, restored_nat]

@[simp] theorem ofData?_toData_field (f : Field) : ofData? (toData f) = some f := by
  have hread (name type : Data) :
      (ofData? (.object [("name", name), ("data_type", type)]) : Option Field) =
        (do some ⟨← ofData? name, ← ofData? type⟩) := rfl
  have hstored : toData f = .object [("name", toData f.name), ("data_type", toData f.type)] := rfl
  simp [hstored, hread]

@[simp] theorem ofData?_toData_schema (s : Schema) : ofData? (toData s) = some s := by
  have hread (fields : Data) :
      (ofData? (.object [("fields", fields)]) : Option Schema) =
        (do some ⟨← ofData? fields⟩) := rfl
  have hstored : toData s = .object [("fields", toData s.fields)] := rfl
  have hfields : ofData? (toData s.fields) = some s.fields :=
    restored_list.2 fun f _ => ofData?_toData_field f
  simp [hstored, hread, hfields]

@[simp] theorem ofData?_toData_table (t : Table) : ofData? (toData t) = some t := by
  have hread (schema name : Data) :
      (ofData? (.object [("schema", schema), ("name", name)]) : Option Table) =
        (do some ⟨← ofData? schema, ← ofData? name⟩) := rfl
  have hstored : toData t = .object [("schema", toData t.schema), ("name", toData t.name)] := rfl
  simp [hstored, hread]

theorem restored_sortKey {k : SortKey} : Restored k ↔ k.ordinal < ordinalBound := by
  have hread (ordinal ascending nullsFirst : Data) :
      (ofData? (.object [("index", ordinal), ("ascending", ascending),
        ("nulls_first", nullsFirst)]) : Option SortKey) =
        (do some ⟨← ofData? ordinal, ← ofData? ascending, ← ofData? nullsFirst⟩) := rfl
  have hstored : toData k = .object [("index", toData k.ordinal),
      ("ascending", toData k.ascending), ("nulls_first", toData k.nullsFirst)] := rfl
  rw [← restored_nat]
  obtain ⟨ordinal, ascending, nullsFirst⟩ := k
  simp [Restored, hstored, hread, Option.bind_eq_some_iff]

theorem restored_distribution {d : Distribution} :
    Restored d ↔ ∀ i ∈ d.ordinals, i < ordinalBound := by
  cases d with
  | hash ordinals =>
      exact (map_ofData?_eq_some_iff fun _ _ => Distribution.hash.inj).trans restored_ordinals
  | any | single | broadcast | roundRobin => exact iff_of_true rfl (by simp [Distribution.ordinals])

theorem restored_traits {t : Traits} : Restored t ↔ t.LieIn ordinalBound := by
  have hread (distribution collation : Data) :
      (ofData? (.object [("distribution", distribution), ("collation", collation)]) :
        Option Traits) =
        (do some ⟨← ofData? distribution, ← ofData? collation⟩) := rfl
  have hstored : toData t = .object [("distribution", toData t.distribution),
      ("collation", toData t.collation)] := rfl
  have hcollation : Restored t.collation ↔ ∀ i ∈ t.sortOrdinals, i < ordinalBound := by
    rw [Traits.sortOrdinals]
    cases t.collation with
    | none => exact iff_of_true restored_none (by simp)
    | some order =>
        have hnull : toData order ≠ .null := nofun
        simp [restored_some hnull, restored_list, restored_sortKey]
  rw [Traits.lieIn_iff, ← restored_distribution, ← hcollation]
  obtain ⟨distribution, collation⟩ := t
  simp [Restored, hstored, hread, Option.bind_eq_some_iff]

theorem restored_aggregate {a : Aggregate} : Restored a ↔ ∀ i ∈ a.args, i < ordinalBound := by
  have hread (function args distinct name type : Data) :
      (ofData? (.object [("func", function), ("args", args), ("distinct", distinct),
        ("name", name), ("data_type", type)]) : Option Aggregate) =
        (do some ⟨← ofData? function, ← ofData? args, ← ofData? distinct, ← ofData? name,
          ← ofData? type⟩) := rfl
  have hstored : toData a = .object [("func", toData a.function), ("args", toData a.args),
      ("distinct", toData a.distinct), ("name", toData a.name), ("data_type", toData a.type)] :=
    rfl
  rw [← restored_ordinals]
  obtain ⟨function, args, distinct, name, type⟩ := a
  simp [Restored, hstored, hread, Option.bind_eq_some_iff]

theorem restored_joinSpec {s : JoinSpec} : Restored s ↔ s.InRange := by
  have hread (joinType condition keys extra : Data) :
      (ofData? (.object [("join_type", joinType), ("condition", condition), ("equi_keys", keys),
        ("extra_condition", extra)]) : Option JoinSpec) =
        (do some ⟨← ofData? joinType, ← ofData? condition, ← ofData? keys, ← ofData? extra⟩) :=
    rfl
  have hstored : toData s = .object [("join_type", toData s.joinType),
      ("condition", toData s.condition), ("equi_keys", toData s.keys),
      ("extra_condition", toData s.extra)] := rfl
  have hkeys : Restored s.keys ↔ ∀ key ∈ s.keys, key.1 < ordinalBound ∧ key.2 < ordinalBound := by
    simp only [restored_list, restored_pair, restored_nat]
  have hextra : Restored s.extra ↔ ∀ e ∈ s.extra, e.InRange := by
    cases s.extra with
    | none => exact iff_of_true restored_none (by simp)
    | some e =>
        have hnull : toData e ≠ .null := e.store_ne_null
        simp [restored_some hnull, restored_expr]
  rw [JoinSpec.InRange, ← restored_expr, ← hkeys, ← hextra]
  obtain ⟨joinType, condition, keys, extra⟩ := s
  simp [Restored, hstored, hread, Option.bind_eq_some_iff]

@[simp] theorem ofData?_toData_quotedName (q : QuotedName) : ofData? (toData q) = some q := by
  have hread (name : Data) : (ofData? (.object [("name", name)]) : Option QuotedName) =
      (do some ⟨← ofData? name⟩) := rfl
  have hstored : toData q = .object [("name", toData q.name)] := rfl
  simp [hstored, hread]

@[simp] theorem ofData?_toData_keyCondition (k : KeyCondition) : ofData? (toData k) = some k := by
  have hread (comparator left right : Data) :
      (ofData? (.object [("comparator", comparator), ("left", left), ("right", right)]) :
        Option KeyCondition) =
        (do some ⟨← ofData? comparator, ← ofData? left, ← ofData? right⟩) := rfl
  have hstored : toData k = .object [("comparator", toData k.comparator), ("left", toData k.left),
      ("right", toData k.right)] := rfl
  simp [hstored, hread]

end Storable

namespace Operator

/-- The kind tells how the contents are read. -/
theorem restored_iff (kind : OperatorKind) {op : Operator} {contents : Data}
    (h : op.store = .tag (Enumeration.name kind) contents) :
    Restored op ↔ restoreKind? kind (some contents) = some op := by
  have hstored : toData op = .tag (Enumeration.name kind) contents := h
  have hread : ofData? (.tag (Enumeration.name kind) contents) =
      restoreKind? kind (some contents) := by
    change restore? _ = _
    simp [restore?, Data.tagged?, Data.tag]
  rw [Restored, hstored, hread]

section Kinds

variable (d d' : Data)

theorem restoreKind?_scan : restoreKind? .scan (some (.object [("table", d)])) =
    (ofData? d).map fun table => .source (.scan table) := rfl

theorem restoreKind?_values : restoreKind? .values (some (.object [("rows", d)])) =
    (ofData? d).map fun rows => .source (.values rows) := rfl

theorem restoreKind?_filter : restoreKind? .filter (some (.object [("predicate", d)])) =
    (ofData? d).map fun predicate => .transform (.filter predicate) := rfl

theorem restoreKind?_project :
    restoreKind? .project (some (.object [("exprs", d), ("allow_duplicates", d')])) =
      (do some (.transform (.project (← ofData? d) (← ofData? d')))) := rfl

theorem restoreKind?_aggregate :
    restoreKind? .hashAggregate (some (.object [("group_by", d), ("aggregates", d')])) =
      (do some (.transform (.aggregate (← ofData? d) (← ofData? d')))) := rfl

theorem restoreKind?_sort : restoreKind? .sort (some (.object [("order", d)])) =
    (ofData? d).map fun order => .transform (.sort order) := rfl

theorem restoreKind?_limit :
    restoreKind? .limit (some (.object [("offset", d), ("count", d')])) =
      (do some (.transform (.limit (← ofData? d) (← ofData? d')))) := rfl

theorem restoreKind?_exchange : restoreKind? .exchange (some (.object [("distribution", d)])) =
    (ofData? d).map fun distribution => .transform (.exchange distribution) := rfl

theorem restoreKind?_writer : restoreKind? .writer (some (.object [("target", d)])) =
    (ofData? d).map fun target => .transform (.writer target) := rfl

theorem restoreKind?_join (algorithm : JoinAlgorithm) :
    restoreKind? (.ofAlgorithm algorithm) (some d) = (ofData? d).map (.join algorithm) := by
  cases algorithm <;> rfl

end Kinds

theorem restored_operator (op : Operator) : Restored op ↔ op.InRange := by
  match op with
  | .source (.scan table) =>
      rw [restored_iff .scan rfl, restoreKind?_scan]
      simp [InRange]
  | .source (.values rows) =>
      rw [restored_iff .values rfl, restoreKind?_values,
        map_ofData?_eq_some_iff fun _ _ h => Source.values.inj (source.inj h), restored_nat,
        InRange]
  | .transform (.filter predicate) =>
      rw [restored_iff .filter rfl, restoreKind?_filter,
        map_ofData?_eq_some_iff fun _ _ h => Transform.filter.inj (transform.inj h),
        restored_expr, InRange]
  | .transform (.project exprs allowDuplicates) =>
      have hexprs : Restored exprs ↔ ∀ e ∈ exprs, e.InRange := by
        simp only [restored_list, restored_expr]
      rw [restored_iff .project rfl, restoreKind?_project, InRange, ← hexprs, Restored]
      simp [Option.bind_eq_some_iff]
  | .transform (.aggregate groupBy aggregates) =>
      have haggregates : Restored aggregates ↔
          ∀ a ∈ aggregates, ∀ i ∈ a.args, i < ordinalBound := by
        simp only [restored_list, restored_aggregate]
      rw [restored_iff .hashAggregate rfl, restoreKind?_aggregate, InRange, ← restored_ordinals,
        ← haggregates, Restored, Restored]
      simp [Option.bind_eq_some_iff]
  | .transform (.sort order) =>
      rw [restored_iff .sort rfl, restoreKind?_sort,
        map_ofData?_eq_some_iff fun _ _ h => Transform.sort.inj (transform.inj h), restored_list,
        InRange]
      simp only [restored_sortKey]
  | .transform (.limit offset count) =>
      rw [restored_iff .limit rfl, restoreKind?_limit, InRange, ← restored_nat, ← restored_nat,
        Restored, Restored]
      simp [Option.bind_eq_some_iff]
  | .transform (.exchange distribution) =>
      rw [restored_iff .exchange rfl, restoreKind?_exchange,
        map_ofData?_eq_some_iff fun _ _ h => Transform.exchange.inj (transform.inj h),
        restored_distribution, InRange]
  | .transform (.writer target) =>
      rw [restored_iff .writer rfl, restoreKind?_writer]
      simp [InRange]
  | .transform .screen => exact iff_of_true rfl trivial
  | .join algorithm spec =>
      rw [restored_iff (.ofAlgorithm algorithm) rfl, restoreKind?_join,
        map_ofData?_eq_some_iff fun _ _ h => (join.inj h).2, restored_joinSpec, InRange]

end Operator

/-- What was stored is read back: every schema and every key condition, and a constant, an
expression, an operator or traits just if the doubles in it are finite and its ordinals and counts
fit into 64 bits. -/
theorem Storable.restored_iff_inRange :
    (∀ v : Scalar, ofData? (toData v) = some v ↔ v.InRange) ∧
      (∀ e : Expr, ofData? (toData e) = some e ↔ e.InRange) ∧
      (∀ s : Schema, ofData? (toData s) = some s) ∧
      (∀ op : Operator, ofData? (toData op) = some op ↔ op.InRange) ∧
      (∀ t : Traits, ofData? (toData t) = some t ↔ ∀ i ∈ t.ordinals, i < ordinalBound) ∧
      ∀ k : KeyCondition, ofData? (toData k) = some k :=
  ⟨fun _ => restored_scalar, fun _ => restored_expr, ofData?_toData_schema,
    Operator.restored_operator, fun _ => restored_traits, ofData?_toData_keyCondition⟩

end QueryPlan
