import QueryPlan.Proofs.JoinNames.Alignment
import QueryPlan.Proofs.Plan.Construction

/-!
# Operators over other inputs

The operator of a node can be put over other inputs in two ways. It can be constructed over them, by
the function for the operator, with what the node declares. Or the node is made again over them,
which is what passes do. The two agree on all but this: a construction first looks whether the
operator finds its ordinals in the rows of the inputs, and a node that is made again keeps what was
known about its output.

So a node can be made again over inputs in which its operator finds no longer what it refers to, and
then the new node refers to fields that are not there. Only an aggregation is refused, since its row
is derived from the fields it refers to. Over inputs that are as wide as those it had, the operator
of a constructed plan finds everything.
-/

namespace QueryPlan

/-- Over a row of the given width the operator finds all its ordinals. -/
def Transform.FindsOrdinals (width : Nat) : Transform → Prop
  | .filter predicate => ∀ i ∈ predicate.ordinals, i < width
  | .project exprs _ => ∀ e ∈ exprs, ∀ i ∈ e.ordinals, i < width
  | .aggregate groupBy aggregates =>
    (∀ i ∈ groupBy, i < width) ∧ ∀ a ∈ aggregates, ∀ i ∈ a.args, i < width
  | .sort order => ∀ k ∈ order, k.ordinal < width
  | .limit _ _ | .exchange _ | .writer _ | .screen => True

/-- Over rows of the given widths the join finds all its ordinals, those of the conditions in the
combined row and those of each key on its own side. -/
def JoinSpec.FindsOrdinals (left right : Nat) (spec : JoinSpec) : Prop :=
  (∀ e ∈ spec.condition :: spec.extra.toList, ∀ i ∈ e.ordinals, i < left + right) ∧
    ∀ k ∈ spec.keys, k.1 < left ∧ k.2 < right

/-- The function for the operator, over an input. A projection and a source have no more than their
schema to say how their fields are named. -/
def Transform.construct (declared : Schema) (input : Plan) : Transform → PlanM Plan
  | .filter predicate => input.filter predicate
  | .project exprs allowDuplicates => input.projectWith allowDuplicates exprs declared.names
  | .aggregate groupBy aggregates => input.aggregate groupBy aggregates
  | .sort order => input.sort order
  | .limit offset count => input.limit offset count
  | .exchange distribution => input.exchange distribution
  | .writer target => input.writer target
  | .screen => input.screen

def Source.construct (declared : Schema) : Source → PlanM Plan
  | .scan table => Plan.scan table declared
  | .values rows => Plan.values declared rows

section Transform

variable {op : Transform} {input output row : Schema} {width width' : Nat}

theorem Transform.FindsOrdinals.mono (h : op.FindsOrdinals width) (hle : width ≤ width') :
    op.FindsOrdinals width' := by
  cases op with
  | filter predicate => exact fun i hi => Nat.lt_of_lt_of_le (h i hi) hle
  | project exprs allowDuplicates => exact fun e he i hi => Nat.lt_of_lt_of_le (h e he i hi) hle
  | aggregate groupBy aggregates =>
      exact ⟨fun i hi => Nat.lt_of_lt_of_le (h.1 i hi) hle,
        fun a ha i hi => Nat.lt_of_lt_of_le (h.2 a ha i hi) hle⟩
  | sort order => exact fun k hk => Nat.lt_of_lt_of_le (h k hk) hle
  | _ => trivial

theorem Transform.Fits.findsOrdinals (h : op.Fits input output) :
    op.FindsOrdinals input.width := by
  cases op with
  | filter predicate => exact h.1
  | project exprs allowDuplicates => exact h.1
  | aggregate groupBy aggregates => exact ⟨h.1, h.2.1⟩
  | sort order => exact h.1
  | _ => trivial

/-- The row can be derived over any other input, but for an aggregation that does not find its
ordinals. -/
theorem exists_derivedSchema_iff {declared : Schema} :
    (∃ output, Plan.derivedSchema declared op input = .ok output) ↔
      (op.kind = .hashAggregate → op.FindsOrdinals input.width) := by
  cases op with
  | aggregate groupBy aggregates =>
      simp only [Plan.derivedSchema, Plan.aggregateSchema_eq_ok_iff]
      constructor
      · rintro ⟨output, hgroup, hargs, -⟩ -
        exact ⟨hgroup, hargs⟩
      · intro h
        obtain ⟨hgroup, hargs⟩ := h rfl
        exact ⟨_, hgroup, hargs, rfl⟩
  | _ => exact iff_of_true ⟨_, rfl⟩ fun h => by cases h

/-- A construction looks for the ordinals, and then it does what making the node again does. -/
theorem run_construct_eq_ok_iff {declared : Schema} (hfits : op.Fits row declared)
    {input q : Plan} {s s' : NodeSupply} :
    (op.construct declared input).run s = .ok (q, s') ↔
      op.FindsOrdinals input.width ∧
        ∃ output, Plan.derivedSchema declared op input.schema = .ok output ∧
          q = .transform (s.header output (op.traits input.traits)) op input ∧ s' = s.rest := by
  cases op with
  | filter predicate =>
      simp only [Plan.derivedSchema, Except.ok.injEq, exists_eq_left']
      exact Plan.run_filter_eq_ok_iff
  | project exprs allowDuplicates =>
      obtain ⟨-, htypes, hnames⟩ := hfits
      have hlength : exprs.length = declared.names.length := by
        rw [Schema.length_names, ← Schema.length_types, htypes, List.length_map]
      have hrow : Schema.ofNamesTypes declared.names (exprs.map Expr.type) = declared := by
        rw [← htypes, Schema.ofNamesTypes_self]
      simp only [Plan.derivedSchema, Except.ok.injEq, exists_eq_left']
      rw [Transform.construct, Plan.run_projectWith_eq_ok_iff, hrow, and_iff_right hnames,
        and_iff_right hlength]
      exact Iff.rfl
  | aggregate groupBy aggregates =>
      simp only [Plan.derivedSchema, Plan.aggregateSchema_eq_ok_iff]
      rw [Transform.construct, Plan.run_aggregate_eq_ok_iff]
      constructor
      · rintro ⟨hgroup, hargs, hq⟩
        exact ⟨⟨hgroup, hargs⟩, _, ⟨hgroup, hargs, rfl⟩, hq⟩
      · rintro ⟨⟨hgroup, hargs⟩, _, ⟨-, -, rfl⟩, hq⟩
        exact ⟨hgroup, hargs, hq⟩
  | sort order =>
      simp only [Plan.derivedSchema, Except.ok.injEq, exists_eq_left']
      exact Plan.run_sort_eq_ok_iff
  | writer target =>
      have hrow : declared = Plan.writerSchema := hfits
      simp only [Plan.derivedSchema, Except.ok.injEq, exists_eq_left']
      rw [hrow]
      exact Plan.run_newTransform_eq_ok_iff.trans (and_iff_right trivial).symm
  | limit offset count =>
      simp only [Plan.derivedSchema, Except.ok.injEq, exists_eq_left']
      exact Plan.run_newTransform_eq_ok_iff.trans (and_iff_right trivial).symm
  | exchange distribution =>
      simp only [Plan.derivedSchema, Except.ok.injEq, exists_eq_left']
      exact Plan.run_newTransform_eq_ok_iff.trans (and_iff_right trivial).symm
  | screen =>
      simp only [Plan.derivedSchema, Except.ok.injEq, exists_eq_left']
      exact Plan.run_newTransform_eq_ok_iff.trans (and_iff_right trivial).symm

end Transform

theorem Source.run_construct_eq_ok_iff {op : Source} {declared : Schema} {q : Plan}
    {s s' : NodeSupply} :
    (op.construct declared).run s = .ok (q, s') ↔
      q = .source (s.header declared op.traits) op ∧ s' = s.rest := by
  cases op with
  | scan table => exact Plan.run_newSource_eq_ok_iff
  | values rows => exact Plan.run_newSource_eq_ok_iff

theorem JoinSpec.FindsOrdinals.mono {spec : JoinSpec} {left left' right right' : Nat}
    (h : spec.FindsOrdinals left right) (hleft : left ≤ left') (hright : right ≤ right') :
    spec.FindsOrdinals left' right' :=
  ⟨fun e he i hi => Nat.lt_of_lt_of_le (h.1 e he i hi) (Nat.add_le_add hleft hright),
    fun k hk => ⟨Nat.lt_of_lt_of_le (h.2 k hk).1 hleft, Nat.lt_of_lt_of_le (h.2 k hk).2 hright⟩⟩

namespace Plan

/-- In the rows of the inputs the operator of the node finds all its ordinals. This asks for as many
inputs as the operator takes. -/
def FindsIn : Plan → List Plan → Prop
  | .source _ _, [] => True
  | .transform _ op _, [input] => op.FindsOrdinals input.width
  | .join _ _ spec _ _, [left, right] => spec.FindsOrdinals left.width right.width
  | _, _ => False

/-- The topmost node refers to nothing that the rows of its inputs do not have. -/
def FindsOrdinals (p : Plan) : Prop := p.FindsIn p.inputs

/-- Calls the function for the operator of the node over other inputs, with what the node
declares. -/
def constructOver (p : Plan) (inputs : List Plan) : PlanM Plan :=
  match p, inputs with
  | .source h op, [] => op.construct h.schema
  | .transform h op _, [input] => op.construct h.schema input
  | .join _ algorithm spec _ _, [left, right] => joinWith algorithm spec left right
  | p, inputs => throw (.inputCount p.kind p.kind.arity inputs.length)

/-- The second node is the first one, but for what is known about its output. -/
structure SameButTraits (p q : Plan) : Prop where
  id_eq : q.id = p.id
  operator_eq : q.operator = p.operator
  inputs_eq : q.inputs = p.inputs
  schema_eq : q.schema = p.schema

variable {p q m n : Plan} {inputs : List Plan} {s t t' t'' : NodeSupply}

theorem RowFits.findsOrdinals (h : p.RowFits) : p.FindsOrdinals := by
  cases p with
  | source header op => trivial
  | transform header op input => exact Transform.Fits.findsOrdinals h
  | join header algorithm spec left right => exact ⟨h.1.1, h.1.2.1⟩

/-- In inputs that are as wide as those of the node its operator finds what it finds there. -/
theorem FindsOrdinals.findsIn (h : p.FindsOrdinals)
    (hwide : List.Forall₂ (fun i j => i.width ≤ j.width) p.inputs inputs) : p.FindsIn inputs := by
  cases p with
  | source header op =>
      cases hwide
      trivial
  | transform header op input =>
      obtain - | ⟨hinput, - | _⟩ := hwide
      exact Transform.FindsOrdinals.mono h hinput
  | join header algorithm spec left right =>
      obtain - | ⟨hleft, - | ⟨hright, - | _⟩⟩ := hwide
      exact JoinSpec.FindsOrdinals.mono h hleft hright

/-- A node over as many inputs as its operator takes. -/
theorem cases_of_length_eq {motive : (p : Plan) → (inputs : List Plan) →
      inputs.length = p.kind.arity → Prop}
    (source : ∀ h op hlength, motive (.source h op) [] hlength)
    (transform : ∀ h op input input' hlength, motive (.transform h op input) [input'] hlength)
    (join : ∀ h algorithm spec left right left' right' hlength,
      motive (.join h algorithm spec left right) [left', right'] hlength)
    (p : Plan) (inputs : List Plan) (hlength : inputs.length = p.kind.arity) :
    motive p inputs hlength := by
  have hlength' : inputs.length = p.inputs.length := hlength.trans p.length_inputs.symm
  cases p with
  | source h op =>
      obtain rfl := List.eq_nil_of_length_eq_zero hlength'
      exact source h op hlength
  | transform h op input =>
      obtain ⟨input', rfl⟩ := List.length_eq_one_iff.1 hlength'
      exact transform h op input input' hlength
  | join h algorithm spec left right =>
      obtain ⟨left', right', rfl⟩ := List.length_eq_two.1 hlength'
      exact join h algorithm spec left right left' right' hlength

theorem FindsIn.length_eq (h : p.FindsIn inputs) : inputs.length = p.kind.arity := by
  rw [← length_inputs]
  unfold FindsIn at h
  split at h
  · rfl
  · rfl
  · rfl
  · exact h.elim

/-- Over too few or too many inputs no node is made again. -/
theorem run_withInputs_of_length_ne (hlength : inputs.length ≠ p.kind.arity) :
    (p.withInputs inputs).run t = .error (.inputCount p.kind p.kind.arity inputs.length) := by
  rw [← length_inputs] at hlength
  unfold withInputs
  split
  · exact absurd rfl hlength
  · exact absurd rfl hlength
  · exact absurd rfl hlength
  · rfl

/-- Over too few or too many inputs no function can be called. -/
theorem run_constructOver_of_length_ne (hlength : inputs.length ≠ p.kind.arity) :
    (p.constructOver inputs).run t = .error (.inputCount p.kind p.kind.arity inputs.length) := by
  rw [← length_inputs] at hlength
  unfold constructOver
  split
  · exact absurd rfl hlength
  · exact absurd rfl hlength
  · exact absurd rfl hlength
  · rfl

theorem length_eq_of_run_withInputs (hrun : (p.withInputs inputs).run t = .ok (m, t')) :
    inputs.length = p.kind.arity := by
  by_contra hlength
  rw [run_withInputs_of_length_ne hlength] at hrun
  cases hrun

/-- Over as many inputs as it takes a node is made again, but for an aggregation that does not find
its ordinals. -/
theorem exists_run_withInputs_iff (hlength : inputs.length = p.kind.arity) :
    (∃ m t', (p.withInputs inputs).run t = .ok (m, t')) ↔
      (p.kind = .hashAggregate → p.FindsIn inputs) := by
  cases p, inputs, hlength using cases_of_length_eq with
  | source h op => exact iff_of_true ⟨_, _, run_newSource_eq_ok_iff.2 ⟨rfl, rfl⟩⟩ fun _ => trivial
  | transform h op input input' =>
      have hderived : (∃ m t', ((transform h op input).withInputs [input']).run t = .ok (m, t')) ↔
          ∃ row, derivedSchema h.schema op input'.schema = .ok row := by
        simp only [run_withInputs_transform_eq_ok_iff]
        exact ⟨fun ⟨_, _, row, hrow, _⟩ => ⟨row, hrow⟩,
          fun ⟨row, hrow⟩ => ⟨_, _, row, hrow, rfl, rfl⟩⟩
      exact hderived.trans exists_derivedSchema_iff
  | join h algorithm spec left right left' right' =>
      refine iff_of_true ⟨_, _, run_withInputs_join_eq_ok_iff.2 ⟨rfl, rfl⟩⟩ fun hkind => ?_
      cases algorithm <;> cases hkind

/-- The function for the operator makes a node exactly if the operator finds its ordinals. -/
theorem exists_run_constructOver_iff (hp : p.RowFits) :
    (∃ q t', (p.constructOver inputs).run t = .ok (q, t')) ↔ p.FindsIn inputs := by
  by_cases hlength : inputs.length = p.kind.arity
  · cases p, inputs, hlength using cases_of_length_eq with
    | source h op =>
        exact iff_of_true ⟨_, _, Source.run_construct_eq_ok_iff.2 ⟨rfl, rfl⟩⟩ trivial
    | transform h op input input' =>
        constructor
        · rintro ⟨q, t', hrun⟩
          exact ((run_construct_eq_ok_iff hp).1 hrun).1
        · intro hfinds
          obtain ⟨row, hrow⟩ := exists_derivedSchema_iff.2 fun _ => hfinds
          exact ⟨_, _, (run_construct_eq_ok_iff hp).2 ⟨hfinds, row, hrow, rfl, rfl⟩⟩
    | join h algorithm spec left right left' right' =>
        constructor
        · rintro ⟨q, t', hrun⟩
          obtain ⟨hordinals, hkeys, -⟩ := run_joinWith_eq_ok_iff.1 hrun
          exact ⟨hordinals, hkeys⟩
        · rintro ⟨hordinals, hkeys⟩
          exact ⟨_, _, run_joinWith_eq_ok_iff.2 ⟨hordinals, hkeys, rfl, rfl⟩⟩
  · refine iff_of_false ?_ fun hfinds => hlength hfinds.length_eq
    rintro ⟨q, t', hrun⟩
    rw [run_constructOver_of_length_ne hlength] at hrun
    cases hrun

theorem run_withInputs_transform_eq_error_iff {h : Header} {op : Transform} {input input' : Plan}
    {e : PlanError} :
    ((transform h op input).withInputs [input']).run t = .error e ↔
      derivedSchema h.schema op input'.schema = .error e := by
  rw [withInputs]
  cases derivedSchema h.schema op input'.schema with
  | ok row => exact iff_of_false (fun hrun => by cases hrun) (fun hrow => by cases hrow)
  | error e' => exact ⟨fun hrun => by cases hrun; rfl, fun hrow => by cases hrow; rfl⟩

/-- What cannot be made again cannot be constructed either, and for the same reason. -/
theorem run_constructOver_of_run_withInputs_eq_error {e : PlanError}
    (hrun : (p.withInputs inputs).run t = .error e) :
    (p.constructOver inputs).run t = .error e := by
  by_cases hlength : inputs.length = p.kind.arity
  · cases p, inputs, hlength using cases_of_length_eq with
    | source h op => cases hrun
    | transform h op input input' =>
        rw [run_withInputs_transform_eq_error_iff] at hrun
        cases op with
        | aggregate groupBy aggregates =>
            have hrow : aggregateSchema input'.schema groupBy aggregates = .error e := hrun
            rw [constructOver, Transform.construct, aggregate, hrow]
            rfl
        | _ => cases hrun
    | join h algorithm spec left right left' right' => cases hrun
  · rw [run_withInputs_of_length_ne hlength] at hrun
    rw [run_constructOver_of_length_ne hlength, hrun]

/-- A node that is made again stands over the inputs with its operator, and refers to what its
operator finds there. -/
theorem over_of_run_withInputs (hrun : (p.withInputs inputs).run t = .ok (m, t')) :
    m.operator = p.operator ∧ m.inputs = inputs ∧ (m.FindsOrdinals ↔ p.FindsIn inputs) := by
  have hlength : inputs.length = p.kind.arity := length_eq_of_run_withInputs hrun
  cases p, inputs, hlength using cases_of_length_eq with
  | source h op =>
      obtain ⟨rfl, -⟩ := run_newSource_eq_ok_iff.1 hrun
      exact ⟨rfl, rfl, Iff.rfl⟩
  | transform h op input input' =>
      obtain ⟨row, -, rfl, -⟩ := run_withInputs_transform_eq_ok_iff.1 hrun
      exact ⟨rfl, rfl, Iff.rfl⟩
  | join h algorithm spec left right left' right' =>
      obtain ⟨rfl, -⟩ := run_withInputs_join_eq_ok_iff.1 hrun
      exact ⟨rfl, rfl, Iff.rfl⟩

/-- A node that is made again and one that is constructed differ in no more than in what is known
about their outputs. -/
theorem sameButTraits_of_run (hp : p.RowFits) (hm : (p.withInputs inputs).run t = .ok (m, t'))
    (hq : (p.constructOver inputs).run t = .ok (q, t'')) : SameButTraits m q ∧ t'' = t' := by
  have hlength : inputs.length = p.kind.arity := length_eq_of_run_withInputs hm
  cases p, inputs, hlength using cases_of_length_eq with
  | source h op =>
      obtain ⟨rfl, rfl⟩ := run_newSource_eq_ok_iff.1 hm
      obtain ⟨rfl, rfl⟩ := Source.run_construct_eq_ok_iff.1 hq
      exact ⟨⟨rfl, rfl, rfl, rfl⟩, rfl⟩
  | transform h op input input' =>
      obtain ⟨row, hrow, rfl, rfl⟩ := run_withInputs_transform_eq_ok_iff.1 hm
      obtain ⟨-, row', hrow', rfl, rfl⟩ := (run_construct_eq_ok_iff hp).1 hq
      rw [hrow, Except.ok.injEq] at hrow'
      exact ⟨⟨rfl, rfl, rfl, hrow'.symm⟩, rfl⟩
  | join h algorithm spec left right left' right' =>
      obtain ⟨rfl, rfl⟩ := run_withInputs_join_eq_ok_iff.1 hm
      obtain ⟨-, -, rfl, rfl⟩ := run_joinWith_eq_ok_iff.1 hq
      exact ⟨⟨rfl, rfl, rfl, rfl⟩, rfl⟩

/-- What comes of making a node of a constructed plan again, for any other inputs. With the wrong
number of inputs, and as an aggregation that does not find its ordinals, it is refused with the
error with which the function for the operator refuses it. In all other cases there is a new node,
and what its operator refers to is there exactly if the function for the operator makes a node,
which then is the same but for what is known about it. -/
theorem run_withInputs_exact (hp : p.Constructed s) (hn : n ∈ p.preorder) (inputs : List Plan)
    (t : NodeSupply) :
    (inputs.length ≠ n.kind.arity → (n.withInputs inputs).run t =
        .error (.inputCount n.kind n.kind.arity inputs.length)) ∧
      (inputs.length = n.kind.arity → ((∃ m t', (n.withInputs inputs).run t = .ok (m, t')) ↔
        (n.kind = .hashAggregate → n.FindsIn inputs))) ∧
      (∀ e, (n.withInputs inputs).run t = .error e → (n.constructOver inputs).run t = .error e) ∧
      ((∃ q t', (n.constructOver inputs).run t = .ok (q, t')) ↔ n.FindsIn inputs) ∧
      (List.Forall₂ (fun i j => i.width ≤ j.width) n.inputs inputs → n.FindsIn inputs) ∧
      ∀ m t', (n.withInputs inputs).run t = .ok (m, t') →
        m.operator = n.operator ∧ m.inputs = inputs ∧ (m.FindsOrdinals ↔ n.FindsIn inputs) ∧
          ∀ q t'', (n.constructOver inputs).run t = .ok (q, t'') →
            SameButTraits m q ∧ t'' = t' := by
  have hrow : n.RowFits := (hp.everywhere n hn).1
  refine ⟨run_withInputs_of_length_ne, exists_run_withInputs_iff,
    fun e => run_constructOver_of_run_withInputs_eq_error, exists_run_constructOver_iff hrow,
    hrow.findsOrdinals.findsIn, fun m t' hm => ?_⟩
  obtain ⟨hoperator, hinputs, hfinds⟩ := over_of_run_withInputs hm
  exact ⟨hoperator, hinputs, hfinds, fun q t'' => sameButTraits_of_run hrow hm⟩

end Plan

/-! A filter that reads the second column of a table, to be put over a table of one column. -/

namespace NarrowTable

def wideRow : Schema := ⟨[⟨"a", .int64⟩, ⟨"b", .int64⟩]⟩

def wide : Plan := .source ⟨⟨0⟩, wideRow, .unknown⟩ (.scan ⟨"s", "t"⟩)

def narrow : Plan := .source ⟨⟨2⟩, ⟨[⟨"a", .int64⟩]⟩, .unknown⟩ (.scan ⟨"s", "u"⟩)

def known : Expr := .unary .isNotNull (.row ⟨1, .int64⟩)

def filtered : Plan := .transform ⟨⟨1⟩, wideRow, .unknown⟩ (.filter known) wide

theorem constructed_filtered : filtered.Constructed ⟨2⟩ := by
  have hwide : Built [wide] ⟨1⟩ := (Built.start ⟨0⟩).scan ⟨"s", "t"⟩ wideRow
  have hrun : (wide.filter known).run ⟨1⟩ = .ok (filtered, ⟨2⟩) :=
    Plan.run_filter_eq_ok_iff.2 ⟨by decide, rfl, rfl⟩
  exact ⟨_, hwide.over (.filter wide known) rfl hrun, List.mem_cons_self⟩

/-- The filter is made again over the narrow table, where it reads a column that is not there. It
cannot be constructed there. -/
theorem run_withInputs_exact_narrow :
    (∃ m t', (filtered.withInputs [narrow]).run ⟨3⟩ = .ok (m, t') ∧ ¬ m.FindsOrdinals) ∧
      ¬ (∃ q t', (filtered.constructOver [narrow]).run ⟨3⟩ = .ok (q, t')) ∧
      filtered.FindsIn [wide] := by
  have hnarrow : ¬ filtered.FindsIn [narrow] := fun h =>
    absurd (h 1 (List.mem_singleton_self 1)) (by decide)
  obtain ⟨-, hmade, -, hconstructed, -, hover⟩ :=
    Plan.run_withInputs_exact constructed_filtered (Plan.mem_preorder_self _) [narrow] ⟨3⟩
  obtain ⟨-, -, -, -, hwide, -⟩ :=
    Plan.run_withInputs_exact constructed_filtered (Plan.mem_preorder_self _) [wide] ⟨3⟩
  obtain ⟨m, t', hm⟩ := (hmade rfl).2 fun hkind => by cases hkind
  obtain ⟨-, -, hfinds, -⟩ := hover m t' hm
  exact ⟨⟨m, t', hm, fun h => hnarrow (hfinds.1 h)⟩, fun h => hnarrow (hconstructed.1 h),
    hwide (.cons (Nat.le_refl _) .nil)⟩

end NarrowTable

end QueryPlan
