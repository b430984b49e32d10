import QueryPlan.Proofs.StarColumns.Decisions
import QueryPlan.Proofs.StarColumns.Labels
import QueryPlan.Proofs.StarColumns.Rows

/-!
# Prefixes tell tables apart

The walk on star columns labels every node that it returns: a leaf that gets a table id is put
under a projection with the prefix of this id, and from there on every operator hands the
labels on. Where the walk throws away what an input has become, no leaf below has a table id.
Only the projection that puts the names back under the screen takes the labels away.
-/

namespace QueryPlan

open StarColumn (isBare startsWithTable tableIds)

namespace StarState

/-- The names are put back under the screen. -/
def restoresNames (σ : StarState) : Bool :=
  σ.prefixNeeded && 0 < σ.prefixedLeaves && !σ.writerRestores

end StarState

/-- The plan shows `body` to the user. With the decisions `σ` it does so through a projection
that puts back the names of `row`, if it is for the screen to put them back. -/
def Plan.IsShown (σ : StarState) (row : Schema) (body q : Plan) : Prop :=
  if σ.restoresNames then
    ∃ h h' allowDuplicates, q = .transform h .screen
      (.transform h' (.project row.identity allowDuplicates) body) ∧ h'.schema = row
  else ∃ h, q = .transform h .screen body

namespace StarColumn

variable {σ σ' : StarState} {s s' : NodeSupply} {p q : Plan} {h : Header}
  {ids rest : List (Option Nat)}

/-- All nodes above the leaves are labelled. -/
def LabelledAll (ids : List (Option Nat)) : Plan → Prop
  | .source _ _ => True
  | .transform h op input => Labelled ids (.transform h op input) ∧ LabelledAll ids input
  | .join h algorithm spec left right =>
    Labelled ids (.join h algorithm spec left right) ∧ LabelledAll ids left ∧
      LabelledAll (ids.drop left.leaves.length) right

theorem LabelledAll.of_mem_places {n : Plan} {place : Nat} (hall : LabelledAll ids p)
    (hn : (place, n) ∈ p.places) (hleaf : n.isLeaf = false) : Labelled (ids.drop place) n := by
  induction p generalizing ids place with
  | source h op =>
      cases List.mem_singleton.1 hn
      cases hleaf
  | transform h op input ih =>
      rcases Plan.mem_places_transform.1 hn with ⟨rfl, rfl⟩ | hn
      · exact hall.1
      · exact ih hall.2 hn
  | join h algorithm spec left right ihl ihr =>
      rcases Plan.mem_places_join.1 hn with ⟨rfl, rfl⟩ | hn | ⟨below, hbelow, rfl⟩
      · exact hall.1
      · exact ihl hall.2.1 hn
      · rw [← List.drop_drop]
        exact ihr hall.2.2 hbelow

/-- Operators inside the plan, other than projections, hand on labels. -/
theorem labelled_of_isInner {op : Transform} {input : Plan} (hop : isInner op = true)
    (hfits : op.Fits input.schema h.schema)
    (hdeclared : DeclaresNoTable (.transform h op input)) (hinput : Labelled ids input) :
    Labelled ids (.transform h op input) := by
  cases op with
  | filter predicate => exact labelled_of_schema_eq hfits.2 (fun _ => rfl) hinput
  | sort order => exact labelled_of_schema_eq hfits.2 (fun _ => rfl) hinput
  | limit offset count => exact labelled_of_schema_eq hfits (fun _ => rfl) hinput
  | exchange distribution => exact labelled_of_schema_eq hfits (fun _ => rfl) hinput
  | aggregate groupBy aggregates =>
      exact labelled_aggregate hfits.1 hfits.2.2
        (fun a ha => hdeclared a.name (List.mem_map_of_mem ha)) hinput
  | project | writer | screen => cases hop

/-- In a plan whose leaves have no table ids, and in which no name is declared with a prefix,
all nodes are labelled: there is nothing to tell. -/
theorem labelled_of_declaresNoTable (hfits : p.WellFormed)
    (hdeclared : p.Everywhere DeclaresNoTable)
    (hids : ∀ l < p.leaves.length, ∀ i, ids[l]? ≠ some (some i)) :
    Labelled ids p ∧ LabelledAll ids p := by
  induction p generalizing ids with
  | source h op =>
      exact ⟨labelled_of_noTable (Plan.everywhere_source.1 hdeclared) hids, trivial⟩
  | transform h op input ih =>
      obtain ⟨hnode, hinputs⟩ := Plan.everywhere_transform.1 hdeclared
      obtain ⟨hrow, hinput⟩ := Plan.wellFormed_transform.1 hfits
      have hids' : ∀ l < input.leaves.length, ∀ i, ids[l]? ≠ some (some i) := by
        rwa [Plan.leaves_transform] at hids
      obtain ⟨hlabelled, hall⟩ := ih hinput hinputs hids'
      suffices hself : Labelled ids (.transform h op input) from ⟨hself, hself, hall⟩
      cases op with
      | project exprs allowDuplicates => exact labelled_of_noTable hnode hids
      | writer target => exact labelled_writer hrow
      | screen => exact labelled_of_schema_eq hrow (fun _ => rfl) hlabelled
      | filter | sort | limit | exchange | aggregate =>
          exact labelled_of_isInner rfl hrow hnode hlabelled
  | join h algorithm spec left right ihl ihr =>
      obtain ⟨-, hlefts, hrights⟩ := Plan.everywhere_join.1 hdeclared
      obtain ⟨⟨hrow, -⟩, hleft, hright⟩ := Plan.wellFormed_join.1 hfits
      rw [Plan.leaves_join, List.length_append] at hids
      have hlids : ∀ l < left.leaves.length, ∀ i, ids[l]? ≠ some (some i) := fun l hl =>
        hids l (Nat.lt_add_right _ hl)
      have hrids : ∀ l < right.leaves.length, ∀ i,
          (ids.drop left.leaves.length)[l]? ≠ some (some i) := by
        intro l hl
        rw [List.getElem?_drop]
        exact hids _ (Nat.add_lt_add_left hl _)
      obtain ⟨hl, hlall⟩ := ihl hleft hlefts hlids
      obtain ⟨hr, hrall⟩ := ihr hright hrights hrids
      have hself := labelled_join algorithm hrow.2.2 hl hr
      exact ⟨hself, hself, hlall, hrall⟩

section Leaf

variable {op : Source} {k : Nat}

theorem origin_prefixedLeaf (s : NodeSupply) (k : Nat) (h : Header) (op : Source) (place : Nat) :
    (prefixedLeaf s k h op).origin place = h.schema.names[place]?.map fun _ => (0, place) := by
  rw [prefixedLeaf, Plan.origin, Schema.getElem?_identity, ← Schema.field?_map_type,
    ← Schema.field?_map_name]
  cases h.schema.field? place <;> rfl

/-- The projection above a prefixed leaf is labelled. -/
theorem labelled_prefixedLeaf (hdeclared : DeclaresNoTable (.source h op)) :
    Labelled (some k :: rest) (prefixedLeaf s k h op) := by
  intro place i
  have horigin := origin_prefixedLeaf s k h op place
  cases hname : h.schema.names[place]? with
  | none =>
      rw [hname] at horigin
      refine iff_of_false ?_ (not_comesFromTable_of_origin horigin)
      rintro ⟨name, hat, -⟩
      rw [fieldNames_prefixedLeaf, withPrefixes, List.getElem?_map, hname] at hat
      cases hat
  | some name =>
      rw [hname] at horigin
      have hat : (prefixedLeaf s k h op).fieldNames[place]? =
          some (if isBare name then withPrefix k name else name) := by
        rw [fieldNames_prefixedLeaf, withPrefixes, List.getElem?_map, hname]
        rfl
      have hfrom : ComesFromTable (some k :: rest) (prefixedLeaf s k h op) place i ↔
          isBare name = true ∧ i = k := by
        constructor
        · rintro ⟨l, column, leaf, name', hl, hleaf, hname', hbare, hid⟩
          rw [horigin] at hl
          cases hl
          cases hleaf
          cases hname.symm.trans hname'
          cases hid
          exact ⟨hbare, rfl⟩
        · rintro ⟨hbare, rfl⟩
          exact ⟨0, place, .source h op, name, horigin, rfl, hname, hbare, rfl⟩
      rw [showsTable_of_getElem? hat, hfrom]
      by_cases hbare : isBare name = true
      · rw [if_pos hbare, startsWithTable_withPrefix]
        exact (and_iff_right hbare).symm
      · rw [if_neg hbare]
        exact iff_of_false (hdeclared name (List.mem_of_getElem? hname) i) fun hand =>
          hbare hand.1

theorem LeavesLeaf.labelled (hstep : LeavesLeaf σ s h op q σ' s')
    (hdeclared : DeclaresNoTable (.source h op)) :
    Labelled (σ.nextIds (.source h op) ++ rest) q ∧
      LabelledAll (σ.nextIds (.source h op) ++ rest) q := by
  rw [StarState.nextIds, Plan.preorder]
  cases hstep with
  | kept hrow =>
      rw [leafMarks_of_kept hrow]
      refine ⟨labelled_of_noTable hdeclared fun l hl i => ?_, trivial⟩
      rw [Nat.lt_one_iff.1 hl]
      exact fun heq => by cases heq
  | prefixed hneeded hrow =>
      rw [leafMarks_of_prefixed hneeded hrow]
      exact ⟨labelled_prefixedLeaf hdeclared, labelled_prefixedLeaf hdeclared, trivial⟩

end Leaf

/-- An operator below the screen is left labelled. -/
theorem LeavesTransform.labelled {op : Transform} {input input' : Plan}
    (hstep : LeavesTransform σ s h op input input' q σ' s')
    (hp : (Plan.transform h op input).WellFormed) (hq : q.WellFormed)
    (hscreen : (Plan.transform h op input).kind ≠ .screen)
    (hdeclared : (Plan.transform h op input).Everywhere DeclaresNoTable)
    (hnone : σ.prefixNeeded = false →
      ∀ l < input.leaves.length, ∀ i, ids[l]? ≠ some (some i))
    (hinput : Labelled ids input' ∧ LabelledAll ids input') :
    Labelled ids q ∧ LabelledAll ids q := by
  have hnode : DeclaresNoTable (.transform h op input) := hdeclared.self
  have habove : ∀ {h' : Header} {op' : Transform}, Labelled ids (.transform h' op' input') →
      Labelled ids (.transform h' op' input') ∧ LabelledAll ids (.transform h' op' input') :=
    fun hself => ⟨hself, hself, hinput.2⟩
  cases hstep with
  | writerKept hneeded =>
      have hids := hnone hneeded
      rw [← Plan.leaves_transform (h := h)] at hids
      exact labelled_of_declaresNoTable hp hdeclared hids
  | writerRebuilt => exact habove (labelled_writer (Plan.wellFormed_transform.1 hq).1)
  | screenKept | screenRebuilt | screenRestored => exact absurd rfl hscreen
  | projectDropped => exact hinput
  | @projectRebuilt exprs _ _ _ _ _ hnames hfits =>
      obtain ⟨⟨-, htypes, -⟩, -⟩ := Plan.wellFormed_transform.1 hp
      have hlength : exprs.length = h.schema.fields.length := by
        have hwidth := congrArg List.length htypes
        rw [Schema.length_types, List.length_map] at hwidth
        exact hwidth.symm
      exact habove (labelled_project hfits.1 hlength hnames
        (fun f hf => hnode f.name (List.mem_map_of_mem hf)) hinput.1)
  | kept hop =>
      have hfits := (Plan.wellFormed_transform.1 hp).1
      exact habove (labelled_of_isInner hop hfits hnode hinput.1)
  | rebuilt hop =>
      refine habove (labelled_of_isInner hop (Plan.wellFormed_transform.1 hq).1 ?_ hinput.1)
      cases op with
      | project | writer | screen => cases hop
      | filter | aggregate | sort | limit | exchange => exact hnode

theorem LeavesJoin.labelled {algorithm : JoinAlgorithm} {spec : JoinSpec}
    {left right left' right' : Plan}
    (hstep : LeavesJoin s h algorithm spec left right left' right' q s') (hq : q.WellFormed)
    (hleft : Labelled ids left' ∧ LabelledAll ids left')
    (hright : Labelled (ids.drop left'.leaves.length) right' ∧
      LabelledAll (ids.drop left'.leaves.length) right') :
    Labelled ids q ∧ LabelledAll ids q := by
  cases hstep with
  | kept | rebuilt =>
      obtain ⟨⟨hfits, -⟩, -, -⟩ := Plan.wellFormed_join.1 hq
      have hself := labelled_join algorithm hfits.2.2 hleft.1 hright.1
      exact ⟨hself, hself, hleft.2, hright.2⟩

theorem Becomes.getElem?_nextIds_ne (hwalk : Becomes σ s p q σ' s')
    (hnothing : σ'.prefixNeeded = false ∨ σ'.prefixedLeaves = 0) :
    ∀ l < p.leaves.length, ∀ i, (σ.nextIds p ++ rest)[l]? ≠ some (some i) := by
  intro l hl i
  rw [hwalk.nextIds_eq_replicate hnothing, List.getElem?_append_left (by simpa),
    List.getElem?_replicate, if_pos hl]
  exact fun heq => by cases heq

/-- The walk below the screen returns a plan in which all nodes are labelled. -/
theorem Becomes.labelled (hwalk : Becomes σ s p q σ' s') (hfits : p.WellFormed)
    (hscreens : p.Everywhere fun n => n.kind ≠ .screen)
    (hdeclared : p.Everywhere DeclaresNoTable) :
    Labelled (σ.nextIds p ++ rest) q ∧ LabelledAll (σ.nextIds p ++ rest) q := by
  induction hwalk generalizing rest with
  | source hstep => exact hstep.labelled (Plan.everywhere_source.1 hdeclared)
  | @transform σ σ₁ _ _ _ _ h op input _ _ hinput hstep ih =>
      have hq := ((Becomes.transform hinput hstep).wellFormed hfits).1
      obtain ⟨-, hinputs⟩ := Plan.wellFormed_transform.1 hfits
      obtain ⟨-, hscreens'⟩ := Plan.everywhere_transform.1 hscreens
      obtain ⟨-, hdeclared'⟩ := Plan.everywhere_transform.1 hdeclared
      rw [StarState.nextIds_transform]
      exact hstep.labelled hfits hq hscreens.self hdeclared
        (fun hneeded => hinput.getElem?_nextIds_ne (Or.inl hneeded))
        (ih hinputs hscreens' hdeclared')
  | @join σ σ₁ _ _ _ _ _ h algorithm spec left right left' _ _ hleft hright hstep ihl ihr =>
      have hq := ((Becomes.join hleft hright hstep).wellFormed hfits).1
      obtain ⟨-, hlfits, hrfits⟩ := Plan.wellFormed_join.1 hfits
      obtain ⟨-, hlscreens, hrscreens⟩ := Plan.everywhere_join.1 hscreens
      obtain ⟨-, hldeclared, hrdeclared⟩ := Plan.everywhere_join.1 hdeclared
      rw [hleft.nextIds_join, List.append_assoc]
      -- The table ids of the right leaves come after those of the left ones.
      refine hstep.labelled hq (ihl hlfits hlscreens hldeclared) ?_
      have hlength : ((σ.entering (.join h algorithm spec left right)).nextIds left).length =
          left'.leaves.length := by
        rw [StarState.length_nextIds, hleft.leaves_eq]
      rw [List.drop_left' hlength]
      exact ihr hrfits hrscreens hrdeclared

/-- The screen ends up over a plan in which all nodes are labelled. -/
theorem Becomes.exists_body {input : Plan}
    (hwalk : Becomes {} s (.transform h .screen input) q σ s')
    (hfits : (Plan.transform h .screen input).WellFormed)
    (hscreens : input.Everywhere fun n => n.kind ≠ .screen)
    (hdeclared : input.Everywhere DeclaresNoTable) :
    ∃ body, LabelledAll (tableIds (.transform h .screen input)) body ∧
      body.leaves = input.leaves ∧ Plan.IsShown σ h.schema body q := by
  have hinputs := (Plan.wellFormed_transform.1 hfits).2
  rw [StarState.tableIds_eq_nextIds, StarState.nextIds_transform,
    ← List.append_nil (StarState.nextIds _ _)]
  cases hwalk with
  | @transform _ _ _ _ _ _ _ _ _ input' _ hinput hstep =>
      have hwalked : LabelledAll (StarState.nextIds _ input ++ []) input' :=
        (hinput.labelled hinputs hscreens hdeclared).2
      cases hstep with
      | screenKept hnothing =>
          have hshown : σ.restoresNames = false := by
            rcases hnothing with hneeded | hzero
            · rw [StarState.restoresNames, hneeded]
              rfl
            · rw [StarState.restoresNames, hzero, decide_eq_false (Nat.lt_irrefl 0),
                Bool.and_false, Bool.false_and]
          refine ⟨input, (labelled_of_declaresNoTable hinputs hdeclared ?_).2, rfl, ?_⟩
          · exact hinput.getElem?_nextIds_ne hnothing
          · rw [Plan.IsShown, hshown, if_neg Bool.false_ne_true]
            exact ⟨h, rfl⟩
      | screenRebuilt _ _ hwriter =>
          refine ⟨input', hwalked, hinput.leaves_eq, ?_⟩
          rw [Plan.IsShown, StarState.restoresNames, hwriter, Bool.not_true, Bool.and_false,
            if_neg Bool.false_ne_true]
          exact ⟨_, rfl⟩
      | screenRestored hneeded hprefixed hwriter =>
          refine ⟨input', hwalked, hinput.leaves_eq, ?_⟩
          rw [Plan.IsShown, StarState.restoresNames, hneeded, hwriter, decide_eq_true hprefixed]
          exact ⟨_, _, _, rfl, rfl⟩
      | kept hop | rebuilt hop => cases hop

end StarColumn

/-- The prefix of a table is found in the row of a node exactly at the places that come from a
star column of this table. This holds at all nodes below the projection that puts the names
back, or below the screen if none is put there. -/
theorem Plan.startsWithTable_iff_of_run_separateStarsWith {p q : Plan} {σ : StarState}
    {s s' : NodeSupply} (hp : p.Constructed s) (hscreen : p.kind = .screen)
    (honly : ∀ i ∈ p.inputs, ∀ n ∈ i.preorder, n.kind ≠ .screen)
    (hdeclared : ∀ n ∈ p.preorder, ∀ name ∈ n.declaredNames, ∀ i, ¬ startsWithTable i name)
    (hrun : p.separateStarsWith.run s = .ok ((q, σ), s')) :
    ∃ body, Plan.IsShown σ p.schema body q ∧
      ∀ place n, (place, n) ∈ body.places → n.isLeaf = false → ∀ j i,
        (∃ name, n.fieldNames[j]? = some name ∧ startsWithTable i name) ↔
          ∃ l column leaf name, n.origin j = some (l, column) ∧
            p.leaves[place + l]? = some leaf ∧ leaf.fieldNames[column]? = some name ∧
            isBare name = true ∧ (tableIds p)[place + l]? = some (some i) := by
  obtain ⟨hwalk, -⟩ := StarColumn.becomes_of_run_separateStarsWith hp hrun
  obtain ⟨h, input, rfl⟩ := Plan.eq_screen_of_kind hscreen
  obtain ⟨body, hall, hleaves, hshown⟩ := hwalk.exists_body hp.wellFormed
    (honly input List.mem_cons_self) (Plan.everywhere_transform.1 hdeclared).2
  refine ⟨body, hshown, fun place n hn hnode j i => ?_⟩
  have hat : ∀ {l column : Nat}, n.origin j = some (l, column) →
      (Plan.transform h .screen input).leaves[place + l]? = n.leaves[l]? := by
    intro l column horigin
    rw [leaves_transform, ← hleaves]
    exact Plan.getElem?_leaves_of_mem_places hn (Plan.origin_lt horigin)
  refine (hall.of_mem_places hn hnode j i).trans ?_
  constructor
  · rintro ⟨l, column, leaf, name, horigin, hleaf, hname, hbare, hid⟩
    rw [List.getElem?_drop] at hid
    exact ⟨l, column, leaf, name, horigin, (hat horigin).trans hleaf, hname, hbare, hid⟩
  · rintro ⟨l, column, leaf, name, horigin, hleaf, hname, hbare, hid⟩
    rw [← List.getElem?_drop] at hid
    exact ⟨l, column, leaf, name, horigin, (hat horigin).symm.trans hleaf, hname, hbare, hid⟩

theorem SwappedStars.startsWithTable_iff_of_run_separateStarsWith_shown :
    ∃ q σ s' body, shown.separateStarsWith.run ⟨5⟩ = .ok ((q, σ), s') ∧
      Plan.IsShown σ shown.schema body q ∧
      ∀ place n, (place, n) ∈ body.places → n.isLeaf = false → ∀ j i,
        (∃ name, n.fieldNames[j]? = some name ∧ startsWithTable i name) ↔
          ∃ l column leaf name, n.origin j = some (l, column) ∧
            shown.leaves[place + l]? = some leaf ∧ leaf.fieldNames[column]? = some name ∧
            isBare name = true ∧ (tableIds shown)[place + l]? = some (some i) := by
  have hscreens : ∀ i ∈ shown.inputs, ∀ n ∈ i.preorder, n.kind ≠ .screen := by decide
  have hheads : ∀ n ∈ shown.preorder, ∀ name ∈ n.declaredNames, name.toList.head? ≠ some 'T' := by
    decide
  obtain ⟨⟨q, σ⟩, s', hrun⟩ :=
    PlanM.exists_run_of_isOk (x := shown.separateStarsWith) (s := ⟨5⟩) (by decide +kernel)
  obtain ⟨body, hshown, htables⟩ := Plan.startsWithTable_iff_of_run_separateStarsWith
    constructed_shown rfl hscreens
    (fun n hn name hname i => StarColumn.not_startsWithTable (hheads n hn name hname)) hrun
  exact ⟨q, σ, s', body, hrun, hshown, htables⟩

end QueryPlan
