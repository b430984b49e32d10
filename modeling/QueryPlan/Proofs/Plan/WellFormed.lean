import QueryPlan.Proofs.Names
import QueryPlan.Proofs.Plan.Preorder
import QueryPlan.Proofs.Plan.Run
import QueryPlan.Proofs.Schema

/-!
# Well-formed plans

A plan is well-formed when every operator finds its ordinals in the rows it reads and every
node carries the row its operator yields over its inputs. Which row that is depends on names
only where names are handed on. So when the inputs of a node are replaced by others with the
same types, whatever their names, the row can be derived again, it has the types it had, and
the node is well-formed over the new inputs.

What is known about the organisation of an output follows from the inputs in the same way,
and it does not depend on the rows at all.
-/

namespace QueryPlan

open Plan (aggregateFields derivedSchema writerSchema)

/-- Over the row `input` the operator finds all its ordinals and yields the row `output`. -/
def Transform.Fits (input : Schema) : Transform → Schema → Prop
  | .filter predicate, output => (∀ i ∈ predicate.ordinals, i < input.width) ∧ output = input
  | .project exprs allowDuplicates, output =>
    (∀ e ∈ exprs, ∀ i ∈ e.ordinals, i < input.width) ∧
      output.types = exprs.map Expr.type ∧
      (allowDuplicates = false → Names.distinct output.names = true)
  | .aggregate groupBy aggregates, output =>
    (∀ i ∈ groupBy, i < input.width) ∧ (∀ a ∈ aggregates, ∀ i ∈ a.args, i < input.width) ∧
      output = ⟨aggregateFields input groupBy aggregates⟩
  | .sort order, output => (∀ k ∈ order, k.ordinal < input.width) ∧ output = input
  | .limit _ _, output | .exchange _, output | .screen, output => output = input
  | .writer _, output => output = writerSchema

/-- Over the rows of its inputs the join finds all its ordinals and yields the row `output`. -/
def JoinSpec.Fits (left right : Schema) (spec : JoinSpec) (output : Schema) : Prop :=
  (∀ e ∈ spec.condition :: spec.extra.toList, ∀ i ∈ e.ordinals,
      i < left.width + right.width) ∧
    (∀ k ∈ spec.keys, k.1 < left.width ∧ k.2 < right.width) ∧
    output = .join left right spec.joinType

/-- What is known about the output of an operator without inputs. -/
def Source.traits : Source → Traits
  | .scan _ => .unknown
  | .values _ => .distributed .single

/-- What is known about the output of an operator from what is known about its input. -/
def Transform.traits (input : Traits) : Transform → Traits
  | .filter _ | .project _ _ | .limit _ _ => input
  | .aggregate _ _ => .unknown
  | .sort order => input.sortedBy order
  | .exchange distribution => .distributed distribution
  | .writer _ | .screen => .distributed .single

theorem types_aggregateFields {input input' : Schema} (h : input'.types = input.types)
    (groupBy : List Nat) (aggregates : List Aggregate) :
    (Schema.mk (aggregateFields input' groupBy aggregates)).types =
      (Schema.mk (aggregateFields input groupBy aggregates)).types := by
  have hgroup : ∀ s : Schema, (groupBy.filterMap s.field?).map Field.type =
      groupBy.filterMap fun i => s.types[i]? := by
    intro s
    rw [List.map_filterMap]
    exact congrArg (List.filterMap · groupBy) (funext s.field?_map_type)
  simp only [Schema.types, aggregateFields, List.map_append]
  rw [hgroup, hgroup, h]

/-- The row of an operator, derived again over the very input, is the row it has. -/
theorem Transform.Fits.derivedSchema_eq {op : Transform} {input output : Schema}
    (h : op.Fits input output) : derivedSchema output op input = .ok output := by
  cases op with
  | filter predicate => rw [derivedSchema, h.2]
  | project exprs allowDuplicates => rfl
  | aggregate groupBy aggregates => exact Plan.aggregateSchema_eq_ok_iff.2 h
  | sort order => rw [derivedSchema, h.2]
  | limit offset count => exact congrArg Except.ok h.symm
  | exchange distribution => exact congrArg Except.ok h.symm
  | writer target => rfl
  | screen => exact congrArg Except.ok h.symm

/-- Over an input of the same types the row can be derived again, and it keeps its types. -/
theorem Transform.Fits.exists_derivedSchema {op : Transform} {input input' output : Schema}
    (h : op.Fits input output) (htypes : input'.types = input.types) :
    ∃ output', derivedSchema output op input' = .ok output' ∧ op.Fits input' output' ∧
      output'.types = output.types := by
  have hwidth : input'.width = input.width := Schema.width_eq_of_types_eq htypes
  cases op with
  | filter predicate =>
      obtain ⟨hordinals, rfl⟩ := h
      exact ⟨input', rfl, ⟨hwidth ▸ hordinals, rfl⟩, htypes⟩
  | project exprs allowDuplicates => exact ⟨output, rfl, ⟨hwidth ▸ h.1, h.2⟩, rfl⟩
  | aggregate groupBy aggregates =>
      obtain ⟨hgroup, hargs, rfl⟩ := h
      have hfits : (Transform.aggregate groupBy aggregates).Fits input'
          ⟨aggregateFields input' groupBy aggregates⟩ := ⟨hwidth ▸ hgroup, hwidth ▸ hargs, rfl⟩
      exact ⟨_, Plan.aggregateSchema_eq_ok_iff.2 hfits, hfits,
        types_aggregateFields htypes groupBy aggregates⟩
  | sort order =>
      obtain ⟨hordinals, rfl⟩ := h
      exact ⟨input', rfl, ⟨hwidth ▸ hordinals, rfl⟩, htypes⟩
  | limit offset count => exact ⟨input', rfl, rfl, h ▸ htypes⟩
  | exchange distribution => exact ⟨input', rfl, rfl, h ▸ htypes⟩
  | writer target => exact ⟨output, rfl, h, rfl⟩
  | screen => exact ⟨input', rfl, rfl, h ▸ htypes⟩

/-- Over inputs of the same types a join fits again, and its row keeps its types. -/
theorem JoinSpec.Fits.over {spec : JoinSpec} {left left' right right' output : Schema}
    (h : spec.Fits left right output) (hleft : left'.types = left.types)
    (hright : right'.types = right.types) :
    spec.Fits left' right' (.join left' right' spec.joinType) ∧
      (Schema.join left' right' spec.joinType).types = output.types := by
  obtain ⟨hordinals, hkeys, rfl⟩ := h
  have hl : left'.width = left.width := Schema.width_eq_of_types_eq hleft
  have hr : right'.width = right.width := Schema.width_eq_of_types_eq hright
  refine ⟨⟨?_, ?_, rfl⟩, ?_⟩
  · rwa [hl, hr]
  · rwa [hl, hr]
  · rw [Schema.types_join, Schema.types_join, hleft, hright]

namespace Plan

/-- The topmost node carries the row that its operator yields over its inputs. A join knows
nothing about how its output is distributed. -/
def RowFits : Plan → Prop
  | .source _ _ => True
  | .transform h op input => op.Fits input.schema h.schema
  | .join h _ spec left right =>
    spec.Fits left.schema right.schema h.schema ∧ h.traits.distribution = .any

/-- The topmost node carries what its operator makes of what is known about its inputs. -/
def TraitsFit : Plan → Prop
  | .source h op => h.traits = op.traits
  | .transform h op input => h.traits = op.traits input.traits
  | .join h _ _ left _ => h.traits = left.traits.forgetDistribution

/-- Every node carries the row that its operator yields over its inputs. -/
def WellFormed (p : Plan) : Prop := p.Everywhere RowFits

@[simp] theorem wellFormed_source {h : Header} {op : Source} : (source h op).WellFormed := by
  simp [WellFormed, RowFits]

theorem wellFormed_transform {h : Header} {op : Transform} {input : Plan} :
    (transform h op input).WellFormed ↔ op.Fits input.schema h.schema ∧ input.WellFormed :=
  everywhere_transform

theorem wellFormed_join {h : Header} {algorithm : JoinAlgorithm} {spec : JoinSpec}
    {left right : Plan} :
    (join h algorithm spec left right).WellFormed ↔
      (spec.Fits left.schema right.schema h.schema ∧ h.traits.distribution = .any) ∧
        left.WellFormed ∧ right.WellFormed :=
  everywhere_join

end Plan

theorem Traits.forgetDistribution_of_any {t : Traits} (h : t.distribution = .any) :
    t.forgetDistribution = t := by
  obtain ⟨distribution, collation⟩ := t
  cases h
  rfl

end QueryPlan
