import QueryPlan.Proofs.Plan.Origin
import QueryPlan.Proofs.StarColumns.Walk
import QueryPlan.Proofs.StarColumns.TableIds

/-!
# Prefixes as labels

A node is labelled if the prefixes in its row tell where the columns come from: the name at a
place starts with the prefix of a table just if the place comes from a star column of the leaf
that has this table id. Every operator keeps this. It hands a name on where it hands the
column on, and a number behind the name does not hide the prefix. All other names are given in
the node itself.
-/

namespace QueryPlan

namespace StarColumn

/-- The name at the place starts with the prefix of table `i`. -/
def ShowsTable (names : List String) (place i : Nat) : Prop :=
  ∃ name, names[place]? = some name ∧ startsWithTable i name

/-- The place in the row of the node comes from a star column of the leaf with table id `i`.
The table ids are those of the leaves from the first one of the node on. -/
def ComesFromTable (ids : List (Option Nat)) (n : Plan) (place i : Nat) : Prop :=
  ∃ l column leaf name, n.origin place = some (l, column) ∧ n.leaves[l]? = some leaf ∧
    leaf.fieldNames[column]? = some name ∧ isBare name = true ∧ ids[l]? = some (some i)

/-- The prefixes in the row of the node tell from which tables its star columns come. -/
def Labelled (ids : List (Option Nat)) (n : Plan) : Prop :=
  ∀ place i, ShowsTable n.fieldNames place i ↔ ComesFromTable ids n place i

/-- No name that the node itself declares starts with the prefix of a table. -/
def DeclaresNoTable (n : Plan) : Prop := ∀ name ∈ n.declaredNames, ∀ i, ¬ startsWithTable i name

variable {ids : List (Option Nat)} {names : List String} {h : Header} {input : Plan}
  {place i : Nat}

theorem not_showsTable (hnames : ∀ name ∈ names, ∀ i, ¬ startsWithTable i name) :
    ¬ ShowsTable names place i := by
  rintro ⟨name, hname, hstarts⟩
  exact hnames name (List.mem_of_getElem? hname) i hstarts

theorem showsTable_of_getElem? {name : String} (hname : names[place]? = some name) :
    ShowsTable names place i ↔ startsWithTable i name := by
  rw [ShowsTable, hname]
  exact ⟨fun ⟨_, heq, hstarts⟩ => Option.some.inj heq ▸ hstarts, fun hstarts => ⟨_, rfl, hstarts⟩⟩

theorem showsTable_congr {names' : List String} {place' : Nat}
    (h : names[place]? = names'[place']?) :
    ShowsTable names place i ↔ ShowsTable names' place' i := by
  rw [ShowsTable, ShowsTable, h]

theorem showsTable_disambiguate :
    ShowsTable (Names.disambiguate names) place i ↔ ShowsTable names place i :=
  Names.exists_getElem?_disambiguate_iff fun _ _ => startsWithTable_numbered

theorem not_comesFromTable_of_origin {n : Plan} (horigin : n.origin place = none) :
    ¬ ComesFromTable ids n place i := by
  rintro ⟨l, column, leaf, name, hat, -⟩
  rw [horigin] at hat
  cases hat

/-- A place that is handed on comes from where it came from in the input. -/
theorem comesFromTable_transform_iff {op : Transform} {below : Nat}
    (horigin : (Plan.transform h op input).origin place = input.origin below) :
    ComesFromTable ids (.transform h op input) place i ↔ ComesFromTable ids input below i := by
  rw [ComesFromTable, ComesFromTable, horigin, Plan.leaves_transform]

/-- A node without prefixes in its row is labelled if its leaves have no table ids. -/
theorem labelled_of_noTable {n : Plan}
    (hnames : ∀ name ∈ n.fieldNames, ∀ i, ¬ startsWithTable i name)
    (hids : ∀ l < n.leaves.length, ∀ i, ids[l]? ≠ some (some i)) : Labelled ids n := by
  intro place i
  refine iff_of_false (not_showsTable hnames) ?_
  rintro ⟨l, column, leaf, name, -, hleaf, -, -, hid⟩
  exact hids l (List.getElem?_eq_some_iff.1 hleaf).1 i hid

/-- An operator that hands on the whole row hands on the labels. -/
theorem labelled_of_schema_eq {op : Transform} (hrow : h.schema = input.schema)
    (horigin : ∀ place, (Plan.transform h op input).origin place = input.origin place)
    (hinput : Labelled ids input) : Labelled ids (.transform h op input) := by
  intro place i
  rw [comesFromTable_transform_iff (horigin place), ← hinput place i, Plan.fieldNames,
    Plan.schema_transform, hrow]
  rfl

theorem labelled_writer {target : Table} (hrow : h.schema = Plan.writerSchema) :
    Labelled ids (.transform h (.writer target) input) := by
  intro place i
  refine iff_of_false (not_showsTable ?_) (not_comesFromTable_of_origin rfl)
  have hheads : ∀ name ∈ Plan.writerSchema.names, name.toList.head? ≠ some 'T' := by decide
  rw [Plan.fieldNames, Plan.schema_transform, hrow]
  exact fun name hname i => not_startsWithTable (hheads name hname)

section Project

variable {exprs : List Expr} {fields : List Field} {e : Expr}

theorem mem_ordinals_of_bareOrdinal? {o : Nat} (he : e.bareOrdinal? = some o) :
    o ∈ e.ordinals := by
  cases e with
  | row r =>
      cases he
      exact List.mem_singleton_self _
  | _ => cases he

theorem getElem?_inheritedNames (row : Schema) {f : Field} (he : exprs[place]? = some e)
    (hf : fields[place]? = some f) :
    (inheritedNames row exprs fields)[place]? =
      some ((((e.bareOrdinal?).bind row.field?).map Field.name).getD f.name) := by
  rw [inheritedNames, List.getElem?_zipWith, he, hf]

/-- A projection over a new input takes the labels over. -/
theorem labelled_project {allowDuplicates : Bool}
    (hordinals : ∀ e ∈ exprs, ∀ o ∈ e.ordinals, o < input.width)
    (hlength : exprs.length = fields.length)
    (hnames : h.schema.names = adoptedNames input.schema exprs fields)
    (hdeclared : ∀ f ∈ fields, ∀ i, ¬ startsWithTable i f.name) (hinput : Labelled ids input) :
    Labelled ids (.transform h (.project exprs allowDuplicates) input) := by
  intro place i
  have hadopted : ShowsTable h.schema.names place i ↔
      ShowsTable (inheritedNames input.schema exprs fields) place i := by
    rw [hnames, adoptedNames, showsTable_disambiguate]
  rw [Plan.fieldNames, Plan.schema_transform, hadopted]
  cases he : exprs[place]? with
  | none =>
      refine iff_of_false ?_ (not_comesFromTable_of_origin (by simp [Plan.origin, he]))
      rintro ⟨name, hname, -⟩
      rw [inheritedNames, List.getElem?_zipWith, he] at hname
      cases hname
  | some e =>
      obtain ⟨f, hf⟩ : ∃ f, fields[place]? = some f :=
        ⟨_, List.getElem?_eq_getElem (hlength ▸ (List.getElem?_eq_some_iff.1 he).1)⟩
      have hat := getElem?_inheritedNames input.schema he hf
      cases hbare : e.bareOrdinal? with
      | none =>
          rw [hbare] at hat
          refine iff_of_false ?_ (not_comesFromTable_of_origin (by simp [Plan.origin, he, hbare]))
          rw [showsTable_of_getElem? hat]
          exact hdeclared f (List.mem_of_getElem? hf) i
      | some o =>
          have ho : o < input.width :=
            hordinals e (List.mem_of_getElem? he) o (mem_ordinals_of_bareOrdinal? hbare)
          obtain ⟨g, hg⟩ : ∃ g, input.schema.field? o = some g :=
            ⟨_, List.getElem?_eq_getElem ho⟩
          have hname : input.fieldNames[o]? = some g.name := by
            rw [Plan.fieldNames, ← Schema.field?_map_name, hg]
            rfl
          have horigin : (Plan.transform h (.project exprs allowDuplicates) input).origin place =
              input.origin o := by
            simp [Plan.origin, he, hbare]
          rw [hbare, Option.bind_some, hg] at hat
          rw [showsTable_of_getElem? hat, comesFromTable_transform_iff horigin, ← hinput o i,
            showsTable_of_getElem? hname]
          rfl

end Project

section Aggregate

variable {groupBy : List Nat} {aggregates : List Aggregate}

theorem getElem?_filterMap_of_isSome {α β : Type} {f : α → Option β} {l : List α}
    (h : ∀ a ∈ l, (f a).isSome = true) (i : Nat) : (l.filterMap f)[i]? = l[i]?.bind f := by
  induction l generalizing i with
  | nil => rfl
  | cons a l ih =>
      obtain ⟨b, hb⟩ := Option.isSome_iff_exists.1 (h a List.mem_cons_self)
      rw [List.filterMap_cons_some hb]
      cases i with
      | zero => exact hb.symm
      | succ i => exact ih (fun a' ha' => h a' (List.mem_cons_of_mem a ha')) i

/-- The names of an aggregation: those of the grouping columns, then those it declares. -/
theorem getElem?_names_aggregate (aggregates : List Aggregate) (place : Nat) {row : Schema}
    (hgroup : ∀ o ∈ groupBy, o < row.width) :
    (Schema.mk (Plan.aggregateFields row groupBy aggregates)).names[place]? =
      match groupBy[place]? with
      | some o => row.names[o]?
      | none => (aggregates.map Aggregate.name)[place - groupBy.length]? := by
  have hsome : ∀ o ∈ groupBy, (row.field? o).isSome = true := by
    intro o ho
    rw [Schema.field?, List.getElem?_eq_getElem (hgroup o ho)]
    rfl
  have hlength : (groupBy.filterMap row.field?).length = groupBy.length :=
    List.filterMap_length_eq_length.2 hsome
  rw [Schema.names, Plan.aggregateFields, List.getElem?_map]
  cases hat : groupBy[place]? with
  | some o =>
      have hlt : place < (groupBy.filterMap row.field?).length :=
        hlength ▸ (List.getElem?_eq_some_iff.1 hat).1
      rw [List.getElem?_append_left hlt, getElem?_filterMap_of_isSome hsome, hat]
      exact row.field?_map_name o
  | none =>
      have hle : (groupBy.filterMap row.field?).length ≤ place :=
        hlength ▸ List.getElem?_eq_none_iff.1 hat
      rw [List.getElem?_append_right hle, hlength, List.getElem?_map, List.getElem?_map,
        Option.map_map]
      rfl

/-- Grouping by columns hands on their labels. -/
theorem labelled_aggregate (hgroup : ∀ o ∈ groupBy, o < input.width)
    (hrow : h.schema = ⟨Plan.aggregateFields input.schema groupBy aggregates⟩)
    (hdeclared : ∀ a ∈ aggregates, ∀ i, ¬ startsWithTable i a.name)
    (hinput : Labelled ids input) :
    Labelled ids (.transform h (.aggregate groupBy aggregates) input) := by
  intro place i
  have hname := getElem?_names_aggregate aggregates place hgroup
  rw [Plan.fieldNames, Plan.schema_transform, hrow]
  cases hat : groupBy[place]? with
  | some o =>
      have horigin : (Plan.transform h (.aggregate groupBy aggregates) input).origin place =
          input.origin o := by
        simp [Plan.origin, hat]
      rw [hat] at hname
      rw [comesFromTable_transform_iff horigin, ← hinput o i]
      exact showsTable_congr hname
  | none =>
      rw [hat] at hname
      refine iff_of_false ?_ (not_comesFromTable_of_origin (by simp [Plan.origin, hat]))
      rw [showsTable_congr hname]
      refine not_showsTable fun name hmem => ?_
      obtain ⟨a, ha, rfl⟩ := List.mem_map.1 hmem
      exact hdeclared a ha

end Aggregate

section Join

variable {algorithm : JoinAlgorithm} {spec : JoinSpec} {left right : Plan}

theorem comesFromTable_join_left (hplace : place < left.width) :
    ComesFromTable ids (.join h algorithm spec left right) place i ↔
      ComesFromTable ids left place i := by
  have horigin : (Plan.join h algorithm spec left right).origin place = left.origin place := by
    rw [Plan.origin, if_pos hplace]
  have hleaf : ∀ {l column : Nat}, left.origin place = some (l, column) →
      (left.leaves ++ right.leaves)[l]? = left.leaves[l]? := fun hat =>
    List.getElem?_append_left (Plan.origin_lt hat)
  rw [ComesFromTable, ComesFromTable, horigin, Plan.leaves_join]
  constructor
  · rintro ⟨l, column, leaf, name, hat, hl, hrest⟩
    exact ⟨l, column, leaf, name, hat, (hleaf hat).symm.trans hl, hrest⟩
  · rintro ⟨l, column, leaf, name, hat, hl, hrest⟩
    exact ⟨l, column, leaf, name, hat, (hleaf hat).trans hl, hrest⟩

theorem comesFromTable_join_right (hplace : ¬ place < left.width)
    (hemits : spec.joinType.emitsRight = true) :
    ComesFromTable ids (.join h algorithm spec left right) place i ↔
      ComesFromTable (ids.drop left.leaves.length) right (place - left.width) i := by
  have horigin : (Plan.join h algorithm spec left right).origin place =
      (right.origin (place - left.width)).map fun o => (left.leaves.length + o.1, o.2) := by
    rw [Plan.origin, if_neg hplace, if_pos hemits]
  have hleaf : ∀ l : Nat, (left.leaves ++ right.leaves)[left.leaves.length + l]? =
      right.leaves[l]? := by
    intro l
    rw [List.getElem?_append_right (Nat.le_add_right _ _), Nat.add_sub_cancel_left]
  rw [ComesFromTable, ComesFromTable, horigin, Plan.leaves_join]
  constructor
  · rintro ⟨_, column, leaf, name, hat, hl, hname, hbare, hid⟩
    obtain ⟨⟨l, c⟩, hright, heq⟩ := Option.map_eq_some_iff.1 hat
    cases heq
    rw [hleaf] at hl
    rw [← List.getElem?_drop] at hid
    exact ⟨l, c, leaf, name, hright, hl, hname, hbare, hid⟩
  · rintro ⟨l, column, leaf, name, hright, hl, hname, hbare, hid⟩
    rw [List.getElem?_drop] at hid
    exact ⟨left.leaves.length + l, column, leaf, name, by rw [hright]; rfl, (hleaf l).trans hl,
      hname, hbare, hid⟩

/-- A join hands on the labels of its inputs. -/
theorem labelled_join (algorithm : JoinAlgorithm)
    (hrow : h.schema = .join left.schema right.schema spec.joinType)
    (hleft : Labelled ids left) (hright : Labelled (ids.drop left.leaves.length) right) :
    Labelled ids (.join h algorithm spec left right) := by
  intro place i
  rw [Plan.fieldNames, Plan.schema_join, hrow, Schema.names_join]
  by_cases hplace : place < left.width
  · rw [comesFromTable_join_left hplace, ← hleft place i]
    by_cases hemits : spec.joinType.emitsRight = true
    · rw [if_pos hemits, showsTable_disambiguate]
      exact showsTable_congr (List.getElem?_append_left (left.schema.length_names ▸ hplace))
    · rw [if_neg hemits]
      rfl
  · have hle : left.schema.names.length ≤ place :=
      left.schema.length_names ▸ Nat.not_lt.1 hplace
    by_cases hemits : spec.joinType.emitsRight = true
    · rw [comesFromTable_join_right hplace hemits, ← hright (place - left.width) i,
        if_pos hemits, showsTable_disambiguate]
      refine showsTable_congr ?_
      rw [List.getElem?_append_right hle, Schema.length_names]
      rfl
    · rw [if_neg hemits]
      refine iff_of_false ?_ (not_comesFromTable_of_origin ?_)
      · rintro ⟨name, hname, -⟩
        rw [List.getElem?_eq_none_iff.2 hle] at hname
        cases hname
      · rw [Plan.origin, if_neg hplace, if_neg hemits]

end Join

end StarColumn

end QueryPlan
