import QueryPlan.Proofs.Plan.WellFormed

/-!
# Aligned joins

A join is aligned when its inputs have the names that the join has for their fields. A join
of two well-formed inputs has names of which no two are alike. So if its inputs take these
names over, the names need not be told apart again, and the row of the join stays as it is.

`AlignedFrom p q` says that `q` has the operators of `p` with their rows and traits, and
that in between it has the projections which align the joins, and these only where the
names of an input differ from those of the join.
-/

namespace QueryPlan

namespace Schema

/-- The names of the `width` fields from the place `offset` on. -/
def namesAt (s : Schema) (offset width : Nat) : List String := (s.names.drop offset).take width

variable {s : Schema} {offset width : Nat}

theorem length_namesAt (h : offset + width ≤ s.width) :
    (s.namesAt offset width).length = width := by
  rw [namesAt, List.length_take, List.length_drop, length_names]
  omega

theorem namesAt_append {left right : Nat} (h : s.width = left + right) :
    s.namesAt 0 left ++ s.namesAt left right = s.names := by
  have hall : (s.names.drop left).take right = s.names.drop left := by
    apply List.take_of_length_le
    rw [List.length_drop, length_names, h]
    omega
  rw [namesAt, namesAt, hall, List.drop_zero, List.take_append_drop]

theorem namesAt_all : s.namesAt 0 s.width = s.names := by
  rw [namesAt, List.drop_zero, ← length_names, List.take_length]

theorem distinct_namesAt (h : Names.distinct s.names = true) :
    Names.distinct (s.namesAt offset width) = true := by
  rw [Names.distinct_iff] at h ⊢
  have hsublist : (s.namesAt offset width).Sublist s.names :=
    (List.take_sublist _ _).trans (List.drop_sublist _ _)
  exact h.sublist (hsublist.map Names.fold)

end Schema

namespace JoinSpec.Fits

variable {spec : JoinSpec} {left left' right right' row : Schema}

theorem width_eq (h : spec.Fits left right row) (hright : spec.joinType.emitsRight = true) :
    row.width = left.width + right.width := by
  rw [← Schema.length_types, h.2.2, Schema.types_join, if_pos hright, List.length_append,
    Schema.length_types, Schema.length_types]

theorem eq_left (h : spec.Fits left right row) (hright : spec.joinType.emitsRight = false) :
    row = left := by
  rw [h.2.2, Schema.join, hright, if_neg Bool.false_ne_true]

theorem distinct_names (h : spec.Fits left right row)
    (hright : spec.joinType.emitsRight = true) : Names.distinct row.names = true := by
  rw [h.2.2, Schema.names_join, if_pos hright]
  exact Names.distinct_disambiguate _

/-- The range of the left input lies in the row. -/
theorem left_le (h : spec.Fits left right row) : 0 + left.width ≤ row.width := by
  rw [Nat.zero_add]
  cases hemits : spec.joinType.emitsRight with
  | true =>
      rw [h.width_eq hemits]
      exact Nat.le_add_right _ _
  | false =>
      exact Nat.le_of_eq (congrArg Schema.width (h.eq_left hemits)).symm

/-- So does the range of the right input, if it is shown. -/
theorem right_le (h : spec.Fits left right row) (hright : spec.joinType.emitsRight = true) :
    left.width + right.width ≤ row.width := Nat.le_of_eq (h.width_eq hright).symm

/-- If the left input has other names than the join has for it, these are told apart. -/
theorem distinct_left (h : spec.Fits left right row)
    (hne : left.names ≠ row.namesAt 0 left.width) :
    Names.distinct (row.namesAt 0 left.width) = true := by
  cases hemits : spec.joinType.emitsRight with
  | true => exact Schema.distinct_namesAt (h.distinct_names hemits)
  | false =>
      rw [h.eq_left hemits] at hne
      exact absurd Schema.namesAt_all.symm hne

/-- A join of inputs that have taken its names over has the row it had. -/
theorem join_eq (h : spec.Fits left right row) (hltypes : left'.types = left.types)
    (hrtypes : right'.types = right.types) (hleft : left'.names = row.namesAt 0 left.width)
    (hright : spec.joinType.emitsRight = true →
      right'.names = row.namesAt left.width right.width) :
    Schema.join left' right' spec.joinType = row := by
  refine Schema.eq_of_names_types ?_ (h.over hltypes hrtypes).2
  rw [Schema.names_join]
  cases hemits : spec.joinType.emitsRight with
  | true =>
      rw [if_pos rfl, hleft, hright hemits, Schema.namesAt_append (h.width_eq hemits)]
      exact Names.disambiguate_of_distinct (h.distinct_names hemits)
  | false =>
      rw [if_neg Bool.false_ne_true, hleft, ← h.eq_left hemits]
      exact Schema.namesAt_all

end JoinSpec.Fits

/-- The names that the right input of a join gets, from the row of the join. A join that emits
only left rows leaves its right input the names it has. -/
def JoinSpec.rightNames (spec : JoinSpec) (row : Schema) (left right : Plan) : List String :=
  if spec.joinType.emitsRight then row.namesAt left.width right.width else right.fieldNames

namespace Plan

/-- The inputs of the topmost node, if it is a join, have the names that the join has for
their fields. A join that emits only left rows shows nothing of its right input. -/
def IsAligned : Plan → Prop
  | .join h _ spec left right =>
    left.fieldNames = h.schema.namesAt 0 left.width ∧
      (spec.joinType.emitsRight = true →
        right.fieldNames = h.schema.namesAt left.width right.width)
  | _ => True

/-- The input itself if it has the names, and otherwise the projection that gives it the
names. -/
inductive Renamed (names : List String) (input : Plan) : Plan → Prop where
  | kept : input.fieldNames = names → Renamed names input input
  | renamed {h : Header} : input.fieldNames ≠ names → Names.distinct names = true →
    h.schema = .ofNamesTypes names input.schema.types → h.traits = input.traits →
    Renamed names input (.transform h (.project input.schema.identity false) input)

/-- The second plan is the first one with projections that align its joins. -/
inductive AlignedFrom : Plan → Plan → Prop where
  | source {h : Header} {op : Source} : AlignedFrom (.source h op) (.source h op)
  | transform {h h' : Header} {op : Transform} {input input' : Plan} :
    AlignedFrom input input' → h'.schema = h.schema → h'.traits = h.traits →
    AlignedFrom (.transform h op input) (.transform h' op input')
  | join {h h' : Header} {algorithm : JoinAlgorithm} {spec : JoinSpec}
      {left left' left'' right right' right'' : Plan} :
    AlignedFrom left left' → AlignedFrom right right' →
    Renamed (h.schema.namesAt 0 left.width) left' left'' →
    Renamed (spec.rightNames h.schema left right) right' right'' →
    h'.schema = h.schema → h'.traits = h.traits →
    AlignedFrom (.join h algorithm spec left right) (.join h' algorithm spec left'' right'')

variable {names : List String} {input p q : Plan}

/-- Within the row an input keeps the names it has, or it gets those of its range. -/
theorem alignedInput_of_le {offset : Nat} (hstop : offset + input.width ≤ p.width) :
    p.alignedInput offset input =
      if p.schema.namesAt offset input.width == input.fieldNames then pure input
      else input.project input.schema.identity (p.schema.namesAt offset input.width) := by
  rw [alignedInput]
  exact if_neg (Nat.not_lt.2 hstop)

theorem Renamed.types_eq (h : Renamed names input q) (hlength : names.length = input.width) :
    q.schema.types = input.schema.types := by
  cases h with
  | kept => rfl
  | renamed _ _ hrow =>
      have hlength' : names.length = input.schema.types.length := by
        rw [hlength, Schema.length_types, Plan.width]
      rw [Plan.schema_transform, hrow, Schema.types_ofNamesTypes hlength']

theorem Renamed.fieldNames_eq (h : Renamed names input q) (hlength : names.length = input.width) :
    q.fieldNames = names := by
  cases h with
  | kept hnames => exact hnames
  | renamed _ _ hrow =>
      have hlength' : names.length = input.schema.types.length := by
        rw [hlength, Schema.length_types, Plan.width]
      rw [fieldNames, Plan.schema_transform, hrow, Schema.names_ofNamesTypes hlength']

theorem Renamed.wellFormed (h : Renamed names input q) (hlength : names.length = input.width)
    (hinput : input.WellFormed) : q.WellFormed := by
  have htypes := h.types_eq hlength
  have hnames := h.fieldNames_eq hlength
  cases h with
  | kept => exact hinput
  | renamed _ hdistinct =>
      refine wellFormed_transform.2 ⟨⟨fun e => Schema.lt_width_of_mem_identity, ?_, ?_⟩, hinput⟩
      · rw [Schema.map_type_identity]
        exact htypes
      · intro _
        rw [← hnames] at hdistinct
        exact hdistinct

theorem Renamed.everywhere_isAligned (h : Renamed names input q)
    (hinput : input.Everywhere IsAligned) : q.Everywhere IsAligned := by
  cases h with
  | kept => exact hinput
  | renamed => exact everywhere_transform.2 ⟨trivial, hinput⟩

section Join

variable {row : Schema} {spec : JoinSpec} {left left' left'' right right' right'' : Plan}

/-- The left input of a join under the names of the join. -/
theorem Renamed.left_eq (hfits : spec.Fits left.schema right.schema row)
    (hleft : left'.schema = left.schema)
    (hrenamed : Renamed (row.namesAt 0 left.width) left' left'') :
    (row.namesAt 0 left.width).length = left'.width ∧
      left''.schema.types = left.schema.types ∧
      left''.fieldNames = row.namesAt 0 left.width := by
  have hlength : (row.namesAt 0 left.width).length = left'.width :=
    (Schema.length_namesAt hfits.left_le).trans (congrArg Schema.width hleft.symm)
  exact ⟨hlength, by rw [hrenamed.types_eq hlength, hleft],
    hrenamed.fieldNames_eq hlength⟩

/-- The right input of a join under the names it gets. -/
theorem Renamed.right_eq (hfits : spec.Fits left.schema right.schema row)
    (hright : right'.schema = right.schema)
    (hrenamed : Renamed (spec.rightNames row left right) right' right'') :
    (spec.rightNames row left right).length = right'.width ∧
      right''.schema.types = right.schema.types ∧
      (spec.joinType.emitsRight = true →
        right''.fieldNames = row.namesAt left.width right.width) := by
  have hlength : (spec.rightNames row left right).length = right'.width := by
    have hwidth : right'.width = right.width := congrArg Schema.width hright
    rw [JoinSpec.rightNames, hwidth]
    cases hemits : spec.joinType.emitsRight with
    | true =>
        rw [if_pos rfl]
        exact Schema.length_namesAt (hfits.right_le hemits)
    | false =>
        rw [if_neg Bool.false_ne_true, fieldNames, Schema.length_names]
        rfl
  refine ⟨hlength, by rw [hrenamed.types_eq hlength, hright], fun hemits => ?_⟩
  rw [hrenamed.fieldNames_eq hlength, JoinSpec.rightNames, if_pos hemits]

end Join

namespace AlignedFrom

theorem schema_eq (h : AlignedFrom p q) : q.schema = p.schema := by
  cases h with
  | source => rfl
  | transform _ hrow => exact hrow
  | join _ _ _ _ hrow => exact hrow

/-- An aligned plan is well-formed, and all of its joins are aligned. -/
theorem wellFormed (h : AlignedFrom p q) (hp : p.WellFormed) :
    q.WellFormed ∧ q.Everywhere IsAligned := by
  induction h with
  | source => exact ⟨hp, everywhere_source.2 trivial⟩
  | transform hinput hrow _ ih =>
      obtain ⟨hfits, hp'⟩ := wellFormed_transform.1 hp
      obtain ⟨hq, haligned⟩ := ih hp'
      rw [← hinput.schema_eq, ← hrow] at hfits
      exact ⟨wellFormed_transform.2 ⟨hfits, hq⟩, everywhere_transform.2 ⟨trivial, haligned⟩⟩
  | @join h h' algorithm spec left _ left'' right _ right'' hleft hright hlrenamed hrrenamed hrow
      htraits ihl ihr =>
      obtain ⟨⟨hfits, hany⟩, hl, hr⟩ := wellFormed_join.1 hp
      obtain ⟨hl', hlaligned⟩ := ihl hl
      obtain ⟨hr', hraligned⟩ := ihr hr
      obtain ⟨hllength, hltypes, hlnames⟩ := Renamed.left_eq hfits hleft.schema_eq hlrenamed
      obtain ⟨hrlength, hrtypes, hrnames⟩ := Renamed.right_eq hfits hright.schema_eq hrrenamed
      have hlwidth : left''.width = left.width := Schema.width_eq_of_types_eq hltypes
      have hrwidth : right''.width = right.width := Schema.width_eq_of_types_eq hrtypes
      have hfits' := (hfits.over hltypes hrtypes).1
      rw [hfits.join_eq hltypes hrtypes hlnames hrnames, ← hrow] at hfits'
      have haligned : IsAligned (.join h' algorithm spec left'' right'') := by
        rw [IsAligned, hrow, hlwidth, hrwidth]
        exact ⟨hlnames, hrnames⟩
      exact ⟨wellFormed_join.2 ⟨⟨hfits', htraits ▸ hany⟩, hlrenamed.wellFormed hllength hl',
          hrrenamed.wellFormed hrlength hr'⟩,
        everywhere_join.2 ⟨haligned, hlrenamed.everywhere_isAligned hlaligned,
          hrrenamed.everywhere_isAligned hraligned⟩⟩

end AlignedFrom

end Plan

end QueryPlan
