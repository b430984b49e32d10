import QueryPlan.Plan.Basic

/-!
# Rows as names and types

A row is determined by the names and the types of its fields, so a rewrite that only
renames is a statement about the two lists. The identity projection over a row depends on
the types alone, and the expressions that hand on a row are those of its identity
projection and no others.
-/

namespace QueryPlan

namespace Schema

variable {s t : Schema}

@[simp] theorem length_names (s : Schema) : s.names.length = s.width := by
  simp [names, width]

@[simp] theorem length_types (s : Schema) : s.types.length = s.width := by
  simp [types, width]

theorem width_eq_of_types_eq (h : s.types = t.types) : s.width = t.width := by
  rw [← length_types, ← length_types, h]

theorem names_ofNamesTypes {names : List String} {types : List DataType}
    (h : names.length = types.length) : (ofNamesTypes names types).names = names := by
  rw [ofNamesTypes, Schema.names, List.map_zipWith, ← List.map_uncurry_zip_eq_zipWith]
  exact List.map_fst_zip (Nat.le_of_eq h)

theorem types_ofNamesTypes {names : List String} {types : List DataType}
    (h : names.length = types.length) : (ofNamesTypes names types).types = types := by
  rw [ofNamesTypes, Schema.types, List.map_zipWith, ← List.map_uncurry_zip_eq_zipWith]
  exact List.map_snd_zip (Nat.le_of_eq h.symm)

@[simp] theorem ofNamesTypes_self (s : Schema) : ofNamesTypes s.names s.types = s := by
  obtain ⟨fields⟩ := s
  rw [ofNamesTypes, Schema.names, Schema.types, List.zipWith_map, List.zipWith_self]
  simp

theorem eq_of_names_types (hnames : s.names = t.names) (htypes : s.types = t.types) : s = t := by
  rw [← ofNamesTypes_self s, hnames, htypes, ofNamesTypes_self]

theorem field?_map_name (s : Schema) (i : Nat) : (s.field? i).map Field.name = s.names[i]? := by
  rw [field?, names, List.getElem?_map]

theorem field?_map_type (s : Schema) (i : Nat) : (s.field? i).map Field.type = s.types[i]? := by
  rw [field?, types, List.getElem?_map]

theorem types_join (left right : Schema) (joinType : JoinType) :
    (join left right joinType).types =
      if joinType.emitsRight then left.types ++ right.types else left.types := by
  rw [join]
  split
  · rw [types_ofNamesTypes (by simp)]
  · rfl

theorem names_join (left right : Schema) (joinType : JoinType) :
    (join left right joinType).names =
      if joinType.emitsRight then Names.disambiguate (left.names ++ right.names)
      else left.names := by
  rw [join]
  split
  · rw [names_ofNamesTypes (by simp)]
  · rfl

theorem identity_eq_mapIdx_types (s : Schema) :
    s.identity = s.types.mapIdx fun i t => .row ⟨i, t⟩ := by
  apply List.ext_getElem?
  intro i
  rw [identity, types, List.getElem?_mapIdx, List.getElem?_mapIdx, List.getElem?_map,
    Option.map_map]
  rfl

theorem identity_eq_of_types_eq (h : s.types = t.types) : s.identity = t.identity := by
  rw [identity_eq_mapIdx_types, identity_eq_mapIdx_types, h]

theorem getElem?_identity (s : Schema) (i : Nat) :
    s.identity[i]? = s.types[i]?.map fun t => .row ⟨i, t⟩ := by
  rw [identity_eq_mapIdx_types, List.getElem?_mapIdx]

@[simp] theorem map_type_identity (s : Schema) : s.identity.map Expr.type = s.types := by
  apply List.ext_getElem?
  intro i
  rw [List.getElem?_map, getElem?_identity, Option.map_map]
  simp [Function.comp_def, Expr.type]

theorem lt_width_of_mem_identity {e : Expr} (he : e ∈ s.identity) :
    ∀ i ∈ e.ordinals, i < s.width := by
  obtain ⟨i, hi⟩ := List.mem_iff_getElem?.1 he
  rw [getElem?_identity, Option.map_eq_some_iff] at hi
  obtain ⟨t, ht, rfl⟩ := hi
  have hlt : i < s.width := by
    rw [← length_types]
    exact (List.getElem?_eq_some_iff.1 ht).1
  simpa [Expr.ordinals] using hlt

end Schema

namespace Plan

/-- A row is handed on by the expressions of its identity projection and by no others. -/
theorem handsOn_iff {row : Schema} {exprs : List Expr} :
    handsOn row.types exprs = true ↔ exprs = row.identity := by
  rw [handsOn, Bool.and_eq_true, beq_iff_eq]
  constructor
  · rintro ⟨hlength, hall⟩
    apply List.ext_getElem
    · rw [hlength, Schema.length_types, Schema.length_identity]
    intro i hi hi'
    have hit : i < row.types.length := hlength ▸ hi
    have hmem : ((exprs[i], row.types[i]), i) ∈ (exprs.zip row.types).zipIdx := by
      rw [List.mem_zipIdx_iff_getElem?]
      simp [List.getElem?_zip_eq_some, List.getElem?_eq_getElem hi,
        List.getElem?_eq_getElem hit]
    have hcheck := List.all_eq_true.1 hall _ hmem
    have hid : row.identity[i] = .row ⟨i, row.types[i]⟩ := by
      have hget := row.getElem?_identity i
      rw [List.getElem?_eq_getElem hi', List.getElem?_eq_getElem hit] at hget
      exact Option.some.inj hget
    rw [hid]
    cases he : exprs[i] with
    | row r =>
        obtain ⟨ordinal, type⟩ := r
        simp only [he, Bool.and_eq_true, beq_iff_eq] at hcheck
        rw [hcheck.1, hcheck.2]
    | _ => simp [he] at hcheck
  · rintro rfl
    refine ⟨by simp, List.all_eq_true.2 ?_⟩
    rintro ⟨⟨e, t⟩, i⟩ hmem
    have hget : (row.identity.zip row.types)[i]? = some (e, t) :=
      List.mem_zipIdx_iff_getElem?.1 hmem
    have he : row.identity[i]? = some e := (List.getElem?_zip_eq_some.1 hget).1
    have ht : row.types[i]? = some t := (List.getElem?_zip_eq_some.1 hget).2
    rw [Schema.getElem?_identity, ht, Option.map_some, Option.some.injEq] at he
    simp [← he]

@[simp] theorem isIdentityProjection_project {h : Header} {exprs : List Expr}
    {allowDuplicates : Bool} {input : Plan} :
    (transform h (.project exprs allowDuplicates) input).isIdentityProjection =
      handsOn input.schema.types exprs := rfl

end Plan

end QueryPlan
