import QueryPlan.Proofs.StarColumns.Rows
import QueryPlan.Proofs.StarColumns.StarKeys

/-!
# The names that the walk hands up

A projection that is made anew takes over the names of its input. The walk does this whether
or not these names have been changed below, so a column keeps the name that the plan gives it
only if no projection on its way up gives it another one. `Plan.handedNames` are the names
that are handed up if the leaves keep theirs.

A leaf under a prefix has other star columns and the same other names, and every operator
hands the difference on as it is. So the names of what a plan becomes agree with the handed
ones, star columns apart. In a plan whose projections leave the names of columns as they are,
the handed names are those of the plan.
-/

namespace QueryPlan

namespace StarColumn

/-- The name of one field of a projection over the names of its input: a bare reference takes
over the name it refers to, any other expression has the declared name. -/
def takenName (names : List String) (e : Expr) (declared : String) : String :=
  ((e.bareOrdinal?).bind fun o => names[o]?).getD declared

def takenNames (names : List String) (exprs : List Expr) (declared : List String) :
    List String :=
  List.zipWith (takenName names) exprs declared

theorem inheritedNames_eq (row : Schema) (exprs : List Expr) (fields : List Field) :
    inheritedNames row exprs fields = takenNames row.names exprs (fields.map Field.name) := by
  rw [inheritedNames, takenNames, List.zipWith_map_right]
  refine congrArg (fun f => List.zipWith f exprs fields) (funext fun e => funext fun f => ?_)
  rw [takenName]
  cases e.bareOrdinal? with
  | none => rfl
  | some o =>
      rw [Option.bind_some, Option.bind_some, row.field?_map_name]

end StarColumn

open StarColumn (takenName takenNames)

namespace Plan

/-- The names that the plan has after the walk if its leaves keep theirs. -/
def handedNames : Plan → List String
  | .source h _ => h.schema.names
  | .transform h op input =>
    match op with
    | .project exprs _ =>
      if handsOn input.schema.types exprs then input.handedNames
      else Names.disambiguate (takenNames input.handedNames exprs h.schema.names)
    | .aggregate groupBy aggregates =>
      (groupBy.filterMap fun o => input.handedNames[o]?) ++ aggregates.map Aggregate.name
    | .writer _ => h.schema.names
    | .filter _ | .sort _ | .limit _ _ | .exchange _ | .screen => input.handedNames
  | .join _ _ spec left right =>
    if spec.joinType.emitsRight then Names.disambiguate (left.handedNames ++ right.handedNames)
    else left.handedNames

/-- If the node is a projection, no two of its names are alike, and a column that it hands on
has the name that it has in the input. -/
def KeepsNames : Plan → Prop
  | .transform h (.project exprs _) input =>
    Names.distinct h.schema.names = true ∧
      ∀ (i o : Nat) (e : Expr), exprs[i]? = some e → e.bareOrdinal? = some o →
        h.schema.names[i]? = input.fieldNames[o]?
  | _ => True

theorem names_aggregateFields (row : Schema) (groupBy : List Nat)
    (aggregates : List Aggregate) :
    (Schema.mk (aggregateFields row groupBy aggregates)).names =
      (groupBy.filterMap fun o => row.names[o]?) ++ aggregates.map Aggregate.name := by
  rw [Schema.names, aggregateFields, List.map_append, List.map_filterMap, List.map_map]
  exact congrArg (· ++ _) (congrArg (List.filterMap · groupBy) (funext row.field?_map_name))

section KeepsNames

variable {h : Header} {exprs : List Expr} {allowDuplicates : Bool} {input : Plan}

/-- A projection that keeps the names of columns takes over the names that it has. -/
theorem takenNames_of_keepsNames
    (hfits : (Transform.project exprs allowDuplicates).Fits input.schema h.schema)
    (hkeeps : (transform h (.project exprs allowDuplicates) input).KeepsNames) :
    takenNames input.fieldNames exprs h.schema.names = h.schema.names := by
  have hlength : exprs.length = h.schema.names.length := by
    rw [Schema.length_names, ← Schema.length_types, hfits.2.1, List.length_map]
  apply List.ext_getElem?
  intro i
  rw [takenNames, List.getElem?_zipWith]
  cases hname : h.schema.names[i]? with
  | none => cases exprs[i]? <;> rfl
  | some name =>
      obtain ⟨e, he⟩ : ∃ e, exprs[i]? = some e :=
        ⟨_, List.getElem?_eq_getElem (hlength ▸ (List.getElem?_eq_some_iff.1 hname).1)⟩
      rw [he]
      cases hbare : e.bareOrdinal? with
      | none => simp [takenName, hbare]
      | some o => simp [takenName, hbare, ← hkeeps.2 i o e he hbare, hname]

/-- If it hands on the whole row, it has the names of the row. -/
theorem names_eq_of_handsOn (hidentity : handsOn input.schema.types exprs = true)
    (hfits : (Transform.project exprs allowDuplicates).Fits input.schema h.schema)
    (hkeeps : (transform h (.project exprs allowDuplicates) input).KeepsNames) :
    h.schema.names = input.fieldNames := by
  obtain rfl := handsOn_iff.1 hidentity
  have htypes : h.schema.types = input.schema.types := by
    rw [hfits.2.1, Schema.map_type_identity]
  apply List.ext_getElem?
  intro i
  cases htype : input.schema.types[i]? with
  | some t =>
      have he : input.schema.identity[i]? = some (.row ⟨i, t⟩) := by
        rw [Schema.getElem?_identity, htype, Option.map_some]
      exact hkeeps.2 i i _ he rfl
  | none =>
      have hwidth : input.schema.width ≤ i := by
        rw [← Schema.length_types]
        exact List.getElem?_eq_none_iff.1 htype
      rw [fieldNames, List.getElem?_eq_none_iff.2, List.getElem?_eq_none_iff.2]
      · rwa [Schema.length_names]
      · rwa [Schema.length_names, Schema.width_eq_of_types_eq htypes]

end KeepsNames

/-- In a plan whose projections leave the names of columns as they are, the handed names are
its names. -/
theorem handedNames_eq_of_keepsNames {p : Plan} (hp : p.WellFormed)
    (hkeeps : p.Everywhere KeepsNames) : p.handedNames = p.fieldNames := by
  induction p with
  | source h op => rfl
  | transform h op input ih =>
      obtain ⟨hfits, hinput⟩ := wellFormed_transform.1 hp
      obtain ⟨hself, hinputs⟩ := everywhere_transform.1 hkeeps
      have hih := ih hinput hinputs
      rw [fieldNames, schema_transform]
      cases op with
      | project exprs allowDuplicates =>
          rw [handedNames, hih]
          by_cases hidentity : handsOn input.schema.types exprs = true
          · rw [if_pos hidentity, names_eq_of_handsOn hidentity hfits hself]
          · rw [if_neg hidentity, takenNames_of_keepsNames hfits hself,
              Names.disambiguate_of_distinct hself.1]
      | aggregate groupBy aggregates =>
          rw [handedNames, hih, hfits.2.2, names_aggregateFields]
          rfl
      | writer target => rfl
      | filter predicate => rw [handedNames, hih, hfits.2]; rfl
      | sort order => rw [handedNames, hih, hfits.2]; rfl
      | limit offset count => rw [handedNames, hih, hfits]; rfl
      | exchange distribution => rw [handedNames, hih, hfits]; rfl
      | screen => rw [handedNames, hih, hfits]; rfl
  | join h algorithm spec left right ihl ihr =>
      obtain ⟨⟨hfits, -⟩, hleft, hright⟩ := wellFormed_join.1 hp
      obtain ⟨-, hlefts, hrights⟩ := everywhere_join.1 hkeeps
      have hnames := Schema.names_join left.schema right.schema spec.joinType
      rw [← hfits.2.2] at hnames
      rw [handedNames, ihl hleft hlefts, ihr hright hrights]
      exact hnames.symm

end Plan

namespace StarColumn

section Agreement

variable {σ σ' : StarState} {s s' : NodeSupply} {p q input : Plan} {h : Header} {row : Schema}
  {names names' : List String}

theorem agree_takenName {Marked : String → Prop}
    (hnames : List.Forall₂ (Names.Agree Marked) names names') (e : Expr) (declared : String) :
    Names.Agree Marked (takenName names e declared) (takenName names' e declared) := by
  rw [takenName, takenName]
  cases e.bareOrdinal? with
  | none => exact .refl declared
  | some o =>
      rw [Option.bind_some, Option.bind_some]
      have hrel := Names.rel_getElem? hnames o
      generalize names[o]? = taken, names'[o]? = taken' at hrel ⊢
      cases hrel with
      | none => exact .refl declared
      | some hab => exact hab

theorem forall₂_agree_takenNames {Marked : String → Prop}
    (hnames : List.Forall₂ (Names.Agree Marked) names names') (exprs : List Expr)
    (declared : List String) :
    List.Forall₂ (Names.Agree Marked) (takenNames names exprs declared)
      (takenNames names' exprs declared) := by
  induction exprs generalizing declared with
  | nil => exact .nil
  | cons e exprs ih =>
      cases declared with
      | nil => exact .nil
      | cons name declared => exact .cons (agree_takenName hnames e name) (ih declared)

/-- A projection that is made anew hands on agreement. -/
theorem forall₂_agree_adoptedNames
    (hinput : List.Forall₂ (Names.Agree IsStarKey) names row.names) (exprs : List Expr)
    (fields : List Field) :
    List.Forall₂ (Names.Agree IsStarKey)
      (Names.disambiguate (takenNames names exprs (fields.map Field.name)))
      (adoptedNames row exprs fields) := by
  rw [adoptedNames, inheritedNames_eq]
  exact Names.forall₂_agree_disambiguate ignoresNumbers_isStarKey
    (forall₂_agree_takenNames hinput exprs _)

/-- An operator that is neither a projection nor at the boundary hands on agreement. -/
theorem forall₂_agree_of_isInner {op : Transform} {output : Schema} (hop : isInner op = true)
    (hfits : op.Fits row output)
    (hinput : List.Forall₂ (Names.Agree IsStarKey) input.handedNames row.names) :
    List.Forall₂ (Names.Agree IsStarKey) (Plan.transform h op input).handedNames
      output.names := by
  cases op with
  | project | writer | screen => cases hop
  | filter predicate =>
      rw [hfits.2]
      exact hinput
  | sort order =>
      rw [hfits.2]
      exact hinput
  | limit offset count =>
      rw [hfits]
      exact hinput
  | exchange distribution =>
      rw [hfits]
      exact hinput
  | aggregate groupBy aggregates =>
      rw [hfits.2.2, Plan.names_aggregateFields]
      refine List.rel_append (List.rel_filterMap ?_ (List.forall₂_same.2 fun _ _ => rfl))
        (List.forall₂_same.2 fun name _ => .refl name)
      rintro o _ rfl
      exact Names.rel_getElem? hinput o

theorem LeavesLeaf.agree {op : Source} (hstep : LeavesLeaf σ s h op q σ' s') :
    List.Forall₂ (Names.Agree IsStarKey) (Plan.source h op).handedNames q.fieldNames := by
  cases hstep with
  | kept => exact List.forall₂_same.2 fun name _ => .refl name
  | prefixed =>
      rw [fieldNames_prefixedLeaf]
      exact forall₂_agree_withPrefixes _ _

theorem LeavesTransform.agree {op : Transform} {input input' : Plan}
    (hstep : LeavesTransform σ s h op input input' q σ' s') (hq : q.WellFormed)
    (hscreen : op ≠ .screen) (htypes : input'.schema.types = input.schema.types)
    (hinput : List.Forall₂ (Names.Agree IsStarKey) input.handedNames input'.fieldNames) :
    List.Forall₂ (Names.Agree IsStarKey) (Plan.transform h op input).handedNames
      q.fieldNames := by
  cases hstep with
  | screenKept | screenRebuilt | screenRestored => exact absurd rfl hscreen
  | writerKept | writerRebuilt => exact List.forall₂_same.2 fun name _ => .refl name
  | projectDropped hidentity =>
      rw [htypes] at hidentity
      rw [Plan.handedNames, if_pos hidentity]
      exact hinput
  | projectRebuilt hidentity hnames =>
      rw [htypes] at hidentity
      rw [Plan.handedNames, hidentity, if_neg Bool.false_ne_true, Plan.fieldNames,
        Plan.schema_transform, NodeSupply.schema_header, hnames]
      exact forall₂_agree_adoptedNames hinput _ _
  | kept hop | rebuilt hop =>
      exact forall₂_agree_of_isInner hop (Plan.wellFormed_transform.1 hq).1 hinput

theorem LeavesJoin.agree {algorithm : JoinAlgorithm} {spec : JoinSpec}
    {left right left' right' : Plan}
    (hstep : LeavesJoin s h algorithm spec left right left' right' q s') (hq : q.WellFormed)
    (hleft : List.Forall₂ (Names.Agree IsStarKey) left.handedNames left'.fieldNames)
    (hright : List.Forall₂ (Names.Agree IsStarKey) right.handedNames right'.fieldNames) :
    List.Forall₂ (Names.Agree IsStarKey) (Plan.join h algorithm spec left right).handedNames
      q.fieldNames := by
  cases hstep with
  | kept | rebuilt =>
      obtain ⟨⟨hfits, -⟩, -, -⟩ := Plan.wellFormed_join.1 hq
      rw [Plan.handedNames, Plan.fieldNames, Plan.schema_join, hfits.2.2, Schema.names_join]
      by_cases hemits : spec.joinType.emitsRight = true
      · rw [if_pos hemits, if_pos hemits]
        exact Names.forall₂_agree_disambiguate ignoresNumbers_isStarKey
          (List.rel_append hleft hright)
      · rw [if_neg hemits, if_neg hemits]
        exact hleft

/-- What a plan becomes below the screen has the handed names, star columns apart. -/
theorem Becomes.agree (hwalk : Becomes σ s p q σ' s') (hp : p.WellFormed)
    (hscreens : p.Everywhere fun n => n.kind ≠ .screen) :
    List.Forall₂ (Names.Agree IsStarKey) p.handedNames q.fieldNames := by
  induction hwalk with
  | source hstep => exact hstep.agree
  | @transform _ _ _ _ _ _ h op input _ _ hinput hstep ih =>
      have hq := ((Becomes.transform hinput hstep).wellFormed hp).1
      obtain ⟨-, hinputs⟩ := Plan.wellFormed_transform.1 hp
      obtain ⟨hself, hscreens'⟩ := Plan.everywhere_transform.1 hscreens
      have hscreen : op ≠ .screen := by
        rintro rfl
        exact hself rfl
      exact hstep.agree hq hscreen (hinput.wellFormed hinputs).2 (ih hinputs hscreens')
  | join hleft hright hstep ihl ihr =>
      have hq := ((Becomes.join hleft hright hstep).wellFormed hp).1
      obtain ⟨-, hlfits, hrfits⟩ := Plan.wellFormed_join.1 hp
      obtain ⟨-, hlscreens, hrscreens⟩ := Plan.everywhere_join.1 hscreens
      exact hstep.agree hq (ihl hlfits hlscreens) (ihr hrfits hrscreens)

end Agreement

end StarColumn

end QueryPlan
