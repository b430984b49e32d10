import QueryPlan.Join.Residual
import QueryPlan.Proofs.Expr.References
import QueryPlan.Proofs.MapM

/-!
# Resolving references to the inputs of a join

The combined row of a join has the left fields and behind them the right ones. So an ordinal that
lies in it stands for one field of one input, and the place of that field gives the ordinal back.
An expression is resolved just if all its ordinals lie in the combined row. It then keeps its
type and everything but its references, and put over the combined row again it is the expression
that it was. Otherwise the first ordinal beyond both inputs is reported.
-/

namespace QueryPlan

/-- The field of an input that a reference to the combined row stands for. -/
structure ResolvesTo (leftNames rightNames : List String) (r : RowRef) (c : SideRef) : Prop where
  name_eq : (leftNames ++ rightNames)[r.ordinal]? = some c.name
  type_eq : c.type = r.type
  /-- The ordinal within the input, and behind the left fields if the input is the right one. -/
  place : (c.side = 0 ∧ c.ordinal = r.ordinal ∧ c.ordinal < leftNames.length) ∨
    (c.side = 1 ∧ leftNames.length + c.ordinal = r.ordinal ∧ c.ordinal < rightNames.length)

section SideRef

variable {leftNames rightNames : List String} {r : RowRef}

theorem exists_sideRef_eq_ok (h : r.ordinal < leftNames.length + rightNames.length) :
    ∃ c, sideRef leftNames rightNames r = .ok c ∧ ResolvesTo leftNames rightNames r c := by
  by_cases hleft : r.ordinal < leftNames.length
  · have hname := List.getElem?_eq_getElem hleft
    refine ⟨_, by rw [sideRef, hname], ?_, rfl, .inl ⟨rfl, rfl, hleft⟩⟩
    rw [List.getElem?_append_left hleft, hname]
  · have hle := Nat.le_of_not_lt hleft
    have hright : r.ordinal - leftNames.length < rightNames.length := by omega
    have hname := List.getElem?_eq_getElem hright
    refine ⟨_, by rw [sideRef, List.getElem?_eq_none hle, hname], ?_, rfl,
      .inr ⟨rfl, Nat.add_sub_of_le hle, hright⟩⟩
    rw [List.getElem?_append_right hle, hname]

theorem sideRef_eq_error (h : leftNames.length + rightNames.length ≤ r.ordinal) :
    sideRef leftNames rightNames r =
      .error (.inputUnresolved r.ordinal leftNames.length rightNames.length) := by
  rw [sideRef, List.getElem?_eq_none (by omega), List.getElem?_eq_none (by omega)]

end SideRef

namespace Expr

mutual
/-- All references to an input from left to right, repetitions kept. -/
def sides : Expr → List SideRef
  | .row _ | .literal _ => []
  | .side c => [c]
  | .binary _ left right => left.sides ++ right.sides
  | .unary _ operand => operand.sides
  | .call _ args _ => sidesOfAll args
  | .and es | .or es => sidesOfAll es
/-- The references to an input in every member in order. -/
def sidesOfAll : List Expr → List SideRef
  | [] => []
  | e :: es => e.sides ++ sidesOfAll es
end

mutual
/-- The expression over the combined row of the inputs 0 and 1, where the left one has the given
number of fields. -/
def overRow (leftWidth : Nat) : Expr → Expr
  | .row r => .row r
  | .side ⟨0, ordinal, _, type⟩ => .row ⟨ordinal, type⟩
  | .side ⟨1, ordinal, _, type⟩ => .row ⟨leftWidth + ordinal, type⟩
  | .side c => .side c
  | .literal v => .literal v
  | .binary op left right => .binary op (left.overRow leftWidth) (right.overRow leftWidth)
  | .unary op operand => .unary op (operand.overRow leftWidth)
  | .call function args result => .call function (allOverRow leftWidth args) result
  | .and es => .and (allOverRow leftWidth es)
  | .or es => .or (allOverRow leftWidth es)
/-- Every member over the combined row. -/
def allOverRow (leftWidth : Nat) : List Expr → List Expr
  | [] => []
  | e :: es => e.overRow leftWidth :: allOverRow leftWidth es
end

variable {leftNames rightNames : List String} {w : Nat}

mutual
theorem overRow_of_sides_eq_nil : ∀ e : Expr, e.sides = [] → e.overRow w = e
  | .row _, _ | .literal _, _ => rfl
  | .binary op left right, h => by
      obtain ⟨hl, hr⟩ := List.append_eq_nil_iff.1 h
      rw [overRow, overRow_of_sides_eq_nil left hl, overRow_of_sides_eq_nil right hr]
  | .unary op operand, h => by rw [overRow, overRow_of_sides_eq_nil operand h]
  | .call function args result, h => by rw [overRow, allOverRow_of_sides_eq_nil args h]
  | .and es, h => by rw [overRow, allOverRow_of_sides_eq_nil es h]
  | .or es, h => by rw [overRow, allOverRow_of_sides_eq_nil es h]
theorem allOverRow_of_sides_eq_nil : ∀ es : List Expr, sidesOfAll es = [] → allOverRow w es = es
  | [], _ => rfl
  | e :: es, h => by
      obtain ⟨he, hes⟩ := List.append_eq_nil_iff.1 h
      rw [allOverRow, overRow_of_sides_eq_nil e he, allOverRow_of_sides_eq_nil es hes]
end

mutual
/-- Replacements that stand for the references over the combined row do not show there. -/
theorem Filled.overRow_eq {e e' : Expr} {as : List (RowRef × Expr)} :
    Filled e as e' → (∀ a ∈ as, a.2.overRow w = .row a.1) → e'.overRow w = e.overRow w
  | .row, h => h _ (List.mem_singleton_self _)
  | .side, _ | .literal, _ => rfl
  | .binary hl hr, h => by
      rw [List.forall_mem_append] at h
      rw [overRow, overRow, hl.overRow_eq h.1, hr.overRow_eq h.2]
  | .unary he, h => by rw [overRow, overRow, he.overRow_eq h]
  | .call hes, h => by rw [overRow, overRow, hes.overRow_eq h]
  | .and hes, h => by rw [overRow, overRow, hes.overRow_eq h]
  | .or hes, h => by rw [overRow, overRow, hes.overRow_eq h]
theorem FilledAll.overRow_eq {es es' : List Expr} {as : List (RowRef × Expr)} :
    FilledAll es as es' → (∀ a ∈ as, a.2.overRow w = .row a.1) →
      allOverRow w es' = allOverRow w es
  | .nil, _ => rfl
  | .cons he hes, h => by
      rw [List.forall_mem_append] at h
      rw [allOverRow, allOverRow, he.overRow_eq h.1, hes.overRow_eq h.2]
end

theorem overRow_side {r : RowRef} {c : SideRef} (h : ResolvesTo leftNames rightNames r c) :
    (Expr.side c).overRow leftNames.length = .row r := by
  obtain ⟨side, ordinal, name, type⟩ := c
  obtain ⟨ordinal', type'⟩ := r
  obtain ⟨-, rfl, ⟨rfl, rfl, -⟩ | ⟨rfl, rfl, -⟩⟩ := h
  · rfl
  · rfl

section Resolve

variable {e e' : Expr} {r : RowRef}

/-- The reference to an input that takes the place of a reference to the combined row. -/
def resolved (leftNames rightNames : List String) (r : RowRef) : Except PlanError Expr := do
  let c ← sideRef leftNames rightNames r
  pure (.side c)

theorem exists_resolved_eq_ok (h : r.ordinal < leftNames.length + rightNames.length) :
    ∃ c, resolved leftNames rightNames r = .ok (.side c) ∧ ResolvesTo leftNames rightNames r c := by
  obtain ⟨c, hc, hresolves⟩ := exists_sideRef_eq_ok h
  exact ⟨c, by rw [resolved, hc]; rfl, hresolves⟩

theorem resolved_eq_error (h : leftNames.length + rightNames.length ≤ r.ordinal) :
    resolved leftNames rightNames r =
      .error (.inputUnresolved r.ordinal leftNames.length rightNames.length) := by
  rw [resolved, sideRef_eq_error h]
  rfl

theorem exists_resolveSides_iff : (∃ e', e.resolveSides leftNames rightNames = .ok e') ↔
    ∀ i ∈ e.ordinals, i < leftNames.length + rightNames.length := by
  have hfilled := filledWith_mapRefs (resolved leftNames rightNames) e
  refine hfilled.exists_eq_ok_iff.trans ?_
  rw [replaceEach, exists_mapM_eq_ok_iff, ← map_ordinal_refs, List.forall_mem_map]
  refine forall₂_congr fun r _ => ?_
  by_cases h : r.ordinal < leftNames.length + rightNames.length
  · obtain ⟨c, hc, -⟩ := exists_resolved_eq_ok h
    exact iff_of_true ⟨(r, .side c), by rw [hc]; rfl⟩ h
  · rw [resolved_eq_error (Nat.le_of_not_lt h)]
    exact iff_of_false nofun h

theorem resolveSides_eq_error_iff {error : PlanError} :
    e.resolveSides leftNames rightNames = .error error ↔
      ∃ i, e.ordinals.find? (fun i => leftNames.length + rightNames.length ≤ i) = some i ∧
        error = .inputUnresolved i leftNames.length rightNames.length := by
  have hfilled := filledWith_mapRefs (resolved leftNames rightNames) e
  refine hfilled.eq_error_iff.trans ?_
  rw [replaceEach, mapM_eq_error_iff_find?
    (fun r => leftNames.length + rightNames.length ≤ r.ordinal)
    (fun r => .inputUnresolved r.ordinal leftNames.length rightNames.length)
    (fun r hr => ?_) (fun r hr => ?_), ← map_ordinal_refs, List.find?_map]
  · simp only [Option.map_eq_some_iff, exists_exists_and_eq_and]
    rfl
  · rw [resolved_eq_error (of_decide_eq_true hr)]
    rfl
  · obtain ⟨c, hc, -⟩ := exists_resolved_eq_ok (Nat.lt_of_not_le (of_decide_eq_false hr))
    exact ⟨(r, .side c), by rw [hc]; rfl⟩

/-- In the place of each reference there is one to the field of an input that it stands for. -/
theorem exists_filled_of_resolveSides (h : e.resolveSides leftNames rightNames = .ok e') :
    ∃ as, Filled e as e' ∧
      ∀ a ∈ as, ∃ c, a.2 = .side c ∧ ResolvesTo leftNames rightNames a.1 c := by
  have hfilled := filledWith_mapRefs (resolved leftNames rightNames) e
  rw [show e.mapRefs (resolved leftNames rightNames) = .ok e' from h] at hfilled
  obtain ⟨as, has, hfilled⟩ := hfilled.exists_filled
  refine ⟨as, hfilled, fun a ha => ?_⟩
  obtain ⟨r, -, hr⟩ := exists_mem_of_mapM_eq_ok has ha
  by_cases hlt : r.ordinal < leftNames.length + rightNames.length
  · obtain ⟨c, hc, hresolves⟩ := exists_resolved_eq_ok hlt
    rw [hc] at hr
    cases hr
    exact ⟨c, rfl, hresolves⟩
  · rw [resolved_eq_error (Nat.le_of_not_lt hlt)] at hr
    cases hr

/-- An expression over the combined row of a join is resolved to the inputs just if all its
ordinals lie in the row, and otherwise the first one beyond it is reported with the widths of the
inputs. The resolved expression refers to the combined row no more and has the type it had. In
the place of each reference there is one to the field of an input that it stands for, and the
rest is kept. Where the expression did not refer to the inputs before, it is given back when it is
put over the combined row again. -/
theorem resolveSides_exact (e : Expr) (leftNames rightNames : List String) :
    ((∃ e', e.resolveSides leftNames rightNames = .ok e') ↔
      ∀ i ∈ e.ordinals, i < leftNames.length + rightNames.length) ∧
    (∀ error, e.resolveSides leftNames rightNames = .error error ↔
      ∃ i, e.ordinals.find? (fun i => leftNames.length + rightNames.length ≤ i) = some i ∧
        error = .inputUnresolved i leftNames.length rightNames.length) ∧
    ∀ e', e.resolveSides leftNames rightNames = .ok e' →
      e'.ordinals = [] ∧ e'.type = e.type ∧
        (∃ as, as.map Prod.fst = e.refs ∧ Filled e as e' ∧
          ∀ a ∈ as, ∃ c, a.2 = .side c ∧ ResolvesTo leftNames rightNames a.1 c) ∧
        (e.sides = [] → e'.overRow leftNames.length = e) := by
  refine ⟨exists_resolveSides_iff, fun _ => resolveSides_eq_error_iff, fun e' h => ?_⟩
  obtain ⟨as, hfilled, has⟩ := exists_filled_of_resolveSides h
  refine ⟨?_, ?_, ⟨as, hfilled.map_fst, hfilled, has⟩, fun hsides => ?_⟩
  · rw [hfilled.ordinals_eq, List.flatMap_eq_nil_iff]
    intro a ha
    obtain ⟨c, hc, -⟩ := has a ha
    rw [hc, ordinals]
  · refine hfilled.type_eq fun a ha => ?_
    obtain ⟨c, hc, hresolves⟩ := has a ha
    rw [hc]
    exact hresolves.type_eq
  · rw [hfilled.overRow_eq, overRow_of_sides_eq_nil e hsides]
    intro a ha
    obtain ⟨c, hc, hresolves⟩ := has a ha
    rw [hc, overRow_side hresolves]

end Resolve

end Expr

/-- Either the extra condition of a join is left out, or it is resolved to the inputs. -/
theorem Plan.extraCondition_join_cases (h : Header) (algorithm : JoinAlgorithm) (spec : JoinSpec)
    (left right : Plan) (vectorize : Bool) :
    (join h algorithm spec left right).extraCondition vectorize = .ok none ∨
      ∃ extra, spec.extra = some extra ∧
        (join h algorithm spec left right).extraCondition vectorize =
          some <$> extra.resolveSides left.fieldNames right.fieldNames := by
  rw [extraCondition]
  cases spec.extra with
  | none => exact .inl rfl
  | some extra =>
      by_cases hwanted : (vectorize && !extra.alwaysTrue) = true
      · exact .inr ⟨extra, rfl, if_pos hwanted⟩
      · exact .inl (if_neg hwanted)

end QueryPlan
