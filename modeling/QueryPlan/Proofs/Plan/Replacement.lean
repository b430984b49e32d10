import QueryPlan.Proofs.Plan.Construction

/-!
# Replaced inputs

An operator that is put over another input is not checked again. It finds its ordinals in the
new row, and its own row keeps its types, as long as the new input is a well-formed plan with
the types of the old one. This is a relation between plans, and the operator hands it on: if
it holds for the inputs, it holds for the node over them.

Nothing is asked of the identities. A node that is kept because its inputs seem to be the ones
it has is at any rate as well-formed as it was.
-/

namespace QueryPlan

namespace Plan

/-- The second plan can take the place of the first one below any operator. -/
structure ReplacedBy (p q : Plan) : Prop where
  wellFormed : q.WellFormed
  types_eq : q.schema.types = p.schema.types

variable {p q r input input' left left' right right' : Plan} {h : Header} {op : Transform}
  {algorithm : JoinAlgorithm} {spec : JoinSpec} {s s' : NodeSupply}

theorem ReplacedBy.refl (hp : p.WellFormed) : ReplacedBy p p := ⟨hp, rfl⟩

theorem ReplacedBy.trans (hpq : ReplacedBy p q) (hqr : ReplacedBy q r) : ReplacedBy p r :=
  ⟨hqr.wellFormed, hqr.types_eq.trans hpq.types_eq⟩

/-- An identity projection over a plan can take its place. -/
theorem replacedBy_of_run_project {allowDuplicates : Bool} {names : List String}
    (hp : p.WellFormed)
    (hrun : (p.projectWith allowDuplicates p.schema.identity names).run s = .ok (q, s')) :
    ReplacedBy p q := by
  obtain ⟨-, -, -, hfits, -⟩ := Construction.makes_projectWith hrun
  obtain ⟨-, -, -, rfl, -⟩ := run_projectWith_eq_ok_iff.1 hrun
  refine ⟨wellFormed_transform.2 ⟨hfits, hp⟩, ?_⟩
  rw [← Schema.map_type_identity p.schema]
  exact hfits.2.1

theorem replacedBy_of_run_withInputs_transform (hp : (transform h op input).WellFormed)
    (hinput : ReplacedBy input input')
    (hrun : ((transform h op input).withInputs [input']).run s = .ok (q, s')) :
    ReplacedBy (.transform h op input) q := by
  obtain ⟨schema, hschema, rfl, -⟩ := run_withInputs_transform_eq_ok_iff.1 hrun
  obtain ⟨schema', hderived, hfits, htypes⟩ :=
    (wellFormed_transform.1 hp).1.exists_derivedSchema hinput.types_eq
  rw [hschema, Except.ok.injEq] at hderived
  rw [← hderived] at hfits htypes
  exact ⟨wellFormed_transform.2 ⟨hfits, hinput.wellFormed⟩, htypes⟩

theorem replacedBy_of_run_withInputs_join (hp : (join h algorithm spec left right).WellFormed)
    (hleft : ReplacedBy left left') (hright : ReplacedBy right right')
    (hrun : ((join h algorithm spec left right).withInputs [left', right']).run s =
      .ok (q, s')) : ReplacedBy (.join h algorithm spec left right) q := by
  obtain ⟨rfl, -⟩ := run_withInputs_join_eq_ok_iff.1 hrun
  obtain ⟨hfits, htypes⟩ :=
    (wellFormed_join.1 hp).1.1.over hleft.types_eq hright.types_eq
  exact ⟨wellFormed_join.2 ⟨⟨hfits, rfl⟩, hleft.wellFormed, hright.wellFormed⟩, htypes⟩

theorem replacedBy_of_run_keepOver_transform (hp : (transform h op input).WellFormed)
    (hinput : ReplacedBy input input')
    (hrun : ((transform h op input).keepOver [input']).run s = .ok (q, s')) :
    ReplacedBy (.transform h op input) q := by
  rcases run_keepOver_eq_ok_iff.1 hrun with ⟨-, rfl, -⟩ | ⟨-, hbuild⟩
  · exact .refl hp
  · exact replacedBy_of_run_withInputs_transform hp hinput hbuild

theorem replacedBy_of_run_keepOver_join (hp : (join h algorithm spec left right).WellFormed)
    (hleft : ReplacedBy left left') (hright : ReplacedBy right right')
    (hrun : ((join h algorithm spec left right).keepOver [left', right']).run s =
      .ok (q, s')) : ReplacedBy (.join h algorithm spec left right) q := by
  rcases run_keepOver_eq_ok_iff.1 hrun with ⟨-, rfl, -⟩ | ⟨-, hbuild⟩
  · exact .refl hp
  · exact replacedBy_of_run_withInputs_join hp hleft hright hbuild

end Plan

end QueryPlan
