import Mathlib.Data.List.Forall2
import QueryPlan.Proofs.Expr.Comparison
import QueryPlan.Proofs.Plan.Shortcut
import QueryPlan.Proofs.Schema

/-!
# What the comparison of plans tells

Two plans that are found to be the same have the same rows and traits node by node. Their
operators need not be one: literals of an expression may differ in representation. What is
read of an expression in a row is its type, and the reference if it is nothing else. These are
equal for expressions that are the same, and so is all that is worked out from them.

The comparison that takes inputs of one identity to be the same unseen finds no more plans the
same, as long as the identities have been given out by one supply.
-/

namespace QueryPlan

/-- Whether a row is handed on can be told from the references. -/
theorem Plan.handsOn_eq_of_beq {exprs exprs' : List Expr} (types : List DataType)
    (h : (exprs == exprs') = true) : handsOn types exprs = handsOn types exprs' := by
  have href : ∀ exprs : List Expr, handsOn types exprs =
      ((exprs.map Expr.rowRef?).length == types.length &&
        ((exprs.map Expr.rowRef?).zip types).zipIdx.all fun x =>
          x.1.1.any fun r => r.ordinal == x.2 && r.type == x.1.2) := by
    intro exprs
    rw [handsOn, List.length_map, List.zip_map_left, List.zipIdx_map, List.all_map]
    congr 2
    funext x
    obtain ⟨⟨e, t⟩, i⟩ := x
    cases e <;> rfl
  rw [href, href, Expr.map_read_eq_of_beq Expr.rowRef?_canonical h]

namespace Transform

variable {op op' : Transform}

theorem eq_project_of_beq {exprs : List Expr} {allowDuplicates : Bool}
    (h : (Transform.project exprs allowDuplicates == op) = true) :
    ∃ exprs', op = .project exprs' allowDuplicates ∧ (exprs == exprs') = true := by
  cases op with
  | project exprs' allowDuplicates' =>
      obtain ⟨hexprs, hflag⟩ := Bool.and_eq_true_iff.1 h
      exact ⟨exprs', by rw [eq_of_beq hflag], hexprs⟩
  | _ => cases h

theorem eq_writer_of_beq {target : Table} (h : (Transform.writer target == op) = true) :
    op = .writer target := by
  cases op with
  | writer target' =>
      have htarget : (target == target') = true := h
      rw [eq_of_beq htarget]
  | _ => cases h

theorem eq_screen_of_beq (h : (Transform.screen == op) = true) : op = .screen := by
  cases op with
  | screen => rfl
  | _ => cases h

/-- Operators that are the same yield the same row over an input. -/
theorem derivedSchema_eq_of_beq (h : (op == op') = true) (declared input : Schema) :
    Plan.derivedSchema declared op input = Plan.derivedSchema declared op' input := by
  cases op with
  | aggregate groupBy aggregates =>
      cases op' with
      | aggregate groupBy' aggregates' =>
          obtain ⟨hgroup, haggregates⟩ := Bool.and_eq_true_iff.1 h
          rw [eq_of_beq hgroup, eq_of_beq haggregates]
      | _ => cases h
  | _ => cases op' <;> first | rfl | cases h

end Transform

theorem JoinSpec.joinType_eq_of_beq {spec spec' : JoinSpec} (h : (spec == spec') = true) :
    spec.joinType = spec'.joinType :=
  eq_of_beq (Bool.and_eq_true_iff.1 h).1

namespace Plan

/-- The trees agree in everything but identities. This is `same` as a relation. -/
inductive Alike : Plan → Plan → Prop where
  | source {h h' : Header} {op : Source} : h.schema = h'.schema → h.traits = h'.traits →
    Alike (.source h op) (.source h' op)
  | transform {h h' : Header} {op op' : Transform} {input input' : Plan} :
    h.schema = h'.schema → h.traits = h'.traits → (op == op') = true → Alike input input' →
    Alike (.transform h op input) (.transform h' op' input')
  | join {h h' : Header} {algorithm : JoinAlgorithm} {spec spec' : JoinSpec}
      {left left' right right' : Plan} :
    h.schema = h'.schema → h.traits = h'.traits → (spec == spec') = true → Alike left left' →
    Alike right right' →
    Alike (.join h algorithm spec left right) (.join h' algorithm spec' left' right')

variable {p q : Plan}

theorem Alike.same (h : Alike p q) : p.same q = true := by
  induction h with
  | source hrow htraits =>
      rw [Plan.same, beq_self_eq_true, Header.alike_iff.2 ⟨hrow, htraits⟩]
      rfl
  | transform hrow htraits hop _ ih =>
      rw [Plan.same, hop, Header.alike_iff.2 ⟨hrow, htraits⟩, ih]
      rfl
  | join hrow htraits hspec _ _ ihl ihr =>
      rw [Plan.same, beq_self_eq_true, hspec, Header.alike_iff.2 ⟨hrow, htraits⟩, ihl, ihr]
      rfl

theorem Alike.equal (h : Alike p q) : p.equal q = true := by
  induction h with
  | source hrow htraits =>
      rw [Plan.equal, beq_self_eq_true, Header.alike_iff.2 ⟨hrow, htraits⟩]
      rfl
  | transform hrow htraits hop _ ih =>
      rw [Plan.equal, hop, Header.alike_iff.2 ⟨hrow, htraits⟩, ih, Bool.or_true]
      rfl
  | join hrow htraits hspec _ _ ihl ihr =>
      rw [Plan.equal, beq_self_eq_true, hspec, Header.alike_iff.2 ⟨hrow, htraits⟩, ihl, ihr,
        Bool.or_true, Bool.or_true]
      rfl

theorem Alike.schema_eq (h : Alike p q) : p.schema = q.schema := by
  cases h with
  | source hrow | transform hrow | join hrow => exact hrow

theorem Alike.traits_eq (h : Alike p q) : p.traits = q.traits := by
  cases h with
  | source _ htraits | transform _ htraits | join _ htraits => exact htraits

theorem alike_of_same (h : p.same q = true) : Alike p q := by
  induction p generalizing q with
  | source h₁ op =>
      cases q with
      | source h₂ op' =>
          rw [same, Bool.and_eq_true, Header.alike_iff, beq_iff_eq] at h
          obtain ⟨rfl, hrow, htraits⟩ := h
          exact .source hrow htraits
      | _ => cases h
  | transform h₁ op input ih =>
      cases q with
      | transform h₂ op' input' =>
          rw [same, Bool.and_eq_true, Bool.and_eq_true, Header.alike_iff] at h
          obtain ⟨⟨hop, hrow, htraits⟩, hbelow⟩ := h
          exact .transform hrow htraits hop (ih hbelow)
      | _ => cases h
  | join h₁ algorithm spec left right ihl ihr =>
      cases q with
      | join h₂ algorithm' spec' left' right' =>
          rw [same, Bool.and_eq_true, Bool.and_eq_true, Bool.and_eq_true, Bool.and_eq_true,
            Header.alike_iff, beq_iff_eq] at h
          obtain ⟨⟨⟨rfl, hspec⟩, hrow, htraits⟩, hleft, hright⟩ := h
          exact .join hrow htraits hspec (ihl hleft) (ihr hright)
      | _ => cases h

/-- Inputs that seem to be the same by their identities are the same if no identity has been
given out twice. -/
theorem alike_of_equal {R : Register} (hp : p ∈ R.nodes) (hq : q ∈ R.nodes)
    (h : p.equal q = true) : Alike p q := by
  rw [equal_eq_same (toldById_of_mem hp hq)] at h
  exact alike_of_same h

/-- Preorder lists nodes that agree at the same places. -/
theorem Alike.forall₂_preorder (h : Alike p q) : List.Forall₂ Alike p.preorder q.preorder := by
  induction h with
  | source hrow htraits => exact .cons (.source hrow htraits) .nil
  | transform hrow htraits hop hinput ih => exact .cons (.transform hrow htraits hop hinput) ih
  | join hrow htraits hspec hleft hright ihl ihr =>
      exact .cons (.join hrow htraits hspec hleft hright) (List.rel_append ihl ihr)

theorem Alike.isLeaf_eq (h : Alike p q) : p.isLeaf = q.isLeaf := by
  cases h <;> rfl

/-- Two runs end in the same way: both return a plan and the plans are found to be the same,
with and without a look at identities, or both are refused with one error. -/
def SameOutcome :
    Except PlanError (Plan × NodeSupply) → Except PlanError (Plan × NodeSupply) → Prop
  | .ok (q, _), .ok (q', _) => q.same q' = true ∧ q.equal q' = true
  | .error e, .error e' => e = e'
  | _, _ => False

end Plan

end QueryPlan
