import Mathlib.Data.List.Basic
import QueryPlan.Join.Residual

/-!
# Conjunctions

A conjunction may hold further conjunctions, and the constant true may stand anywhere among
their members. What is left below all of them are the conjuncts. So an expression is a
conjunction, the constant true or a conjunct, and a statement on conditions is proved along
these three cases.

Taking a condition apart keeps its truth value, also where values are unknown: the
conjunction of the conjuncts is as true as the condition was, and there are none just if the
condition is always true.
-/

namespace QueryPlan

/-- What a condition may be found to be on a row. -/
inductive Truth where
  | false
  | unknown
  | true
  deriving DecidableEq

/-- False if one of the two is false, true if both are true, and otherwise unknown. -/
def Truth.and : Truth → Truth → Truth
  | .false, _ | _, .false => .false
  | .true, .true => .true
  | _, _ => .unknown

/-- The conjunction of any number of truth values. -/
def Truth.all : List Truth → Truth
  | [] => .true
  | t :: ts => t.and (all ts)

@[simp] theorem Truth.and_true (t : Truth) : t.and .true = t := by
  cases t <;> rfl

@[simp] theorem Truth.true_and (t : Truth) : Truth.true.and t = t := by
  cases t <;> rfl

theorem Truth.and_assoc (t u v : Truth) : (t.and u).and v = t.and (u.and v) := by
  cases t <;> cases u <;> cases v <;> rfl

theorem Truth.all_append (ts us : List Truth) : all (ts ++ us) = (all ts).and (all us) := by
  induction ts with
  | nil => rw [List.nil_append, all, true_and]
  | cons t ts ih => rw [List.cons_append, all, all, ih, and_assoc]

/-- The truth of everything that is no conjunction, on some row. -/
structure Assignment where
  value : Expr → Truth
  value_true : value (.literal (.bool true)) = .true

instance : Inhabited Assignment := ⟨⟨fun _ => .true, rfl⟩⟩

namespace Expr

variable {e : Expr} {cs : List Expr}

mutual
/-- The truth of an expression, a conjunction being read as the conjunction of its members. -/
def truth (v : Assignment) : Expr → Truth
  | .and es => truthOfAll v es
  | e => v.value e
/-- The conjunction of the truth of every member. -/
def truthOfAll (v : Assignment) : List Expr → Truth
  | [] => .true
  | e :: es => (e.truth v).and (truthOfAll v es)
end

/-- The expression is neither a conjunction nor the constant true. -/
structure IsConjunct (e : Expr) : Prop where
  ne_and : ∀ es, e ≠ .and es
  ne_true : e ≠ .literal (.bool true)

/-- Induction along nested conjunctions, down to the constant true and to the conjuncts. -/
@[elab_as_elim]
theorem conjunction_induction {motive : Expr → Prop}
    (and : ∀ es, (∀ e ∈ es, motive e) → motive (.and es))
    (constant : motive (.literal (.bool true)))
    (conjunct : ∀ e, e.IsConjunct → motive e) : ∀ e, motive e
  | .and es => and es fun e _ => conjunction_induction and constant conjunct e
  | .literal (.bool true) => constant
  | .literal .null | .literal (.bool false) | .literal (.int64 _) | .literal (.float64 _)
  | .literal (.utf8 _) | .literal (.date _) | .row _ | .side _ | .binary _ _ _ | .unary _ _
  | .call _ _ _ | .or _ => conjunct _ ⟨nofun, nofun⟩

theorem IsConjunct.conjuncts_eq (h : e.IsConjunct) : e.conjuncts = [e] := by
  rw [conjuncts]
  · exact h.ne_and
  · exact h.ne_true

theorem IsConjunct.alwaysTrue_eq (h : e.IsConjunct) : e.alwaysTrue = false := by
  rw [alwaysTrue]
  · exact h.ne_true
  · exact h.ne_and

theorem IsConjunct.truth_eq (h : e.IsConjunct) (v : Assignment) : e.truth v = v.value e := by
  rw [truth]
  exact h.ne_and

theorem isConjunct_of_mem_conjuncts {c : Expr} (e : Expr) (hc : c ∈ e.conjuncts) :
    c.IsConjunct := by
  induction e using conjunction_induction with
  | and es ih =>
      rw [conjuncts, conjunctsOfAll_eq_flatMap, List.mem_flatMap] at hc
      obtain ⟨e, he, hc⟩ := hc
      exact ih e he hc
  | constant => cases hc
  | conjunct e he =>
      rw [he.conjuncts_eq, List.mem_singleton] at hc
      rwa [hc]

/-- Conjuncts of some expression are the conjuncts of their conjunction. -/
theorem conjuncts_and_of_subset (h : cs ⊆ e.conjuncts) : (Expr.and cs).conjuncts = cs := by
  have hself : ∀ c ∈ cs, c.conjuncts = [c] := fun c hc =>
    (isConjunct_of_mem_conjuncts e (h hc)).conjuncts_eq
  rw [conjuncts, conjunctsOfAll_eq_flatMap, List.flatMap_congr hself, List.flatMap_singleton']

/-- The constant true refers to nothing, so nothing is lost with it. -/
theorem flatMap_ordinals_conjuncts (e : Expr) : e.conjuncts.flatMap ordinals = e.ordinals := by
  induction e using conjunction_induction with
  | and es ih =>
      rw [conjuncts, conjunctsOfAll_eq_flatMap, List.flatMap_assoc, List.flatMap_congr ih,
        ordinals, ordinalsOfAll_eq_flatMap]
  | constant => rfl
  | conjunct e he => rw [he.conjuncts_eq, List.flatMap_singleton]

theorem alwaysTrue_iff_conjuncts (e : Expr) : e.alwaysTrue = true ↔ e.conjuncts = [] := by
  induction e using conjunction_induction with
  | and es ih =>
      rw [alwaysTrue, allAlwaysTrue_eq_all, List.all_eq_true, conjuncts,
        conjunctsOfAll_eq_flatMap, List.flatMap_eq_nil_iff]
      exact forall₂_congr ih
  | constant => exact iff_of_true rfl rfl
  | conjunct e he => simp [he.alwaysTrue_eq, he.conjuncts_eq]

theorem all_map_conjunctsOfAll {v : Assignment} {es : List Expr}
    (h : ∀ e ∈ es, Truth.all (e.conjuncts.map v.value) = e.truth v) :
    Truth.all ((conjunctsOfAll es).map v.value) = truthOfAll v es := by
  induction es with
  | nil => rfl
  | cons e es ih =>
      rw [List.forall_mem_cons] at h
      rw [conjunctsOfAll, List.map_append, Truth.all_append, h.1, ih h.2, truthOfAll]

/-- The conjuncts are together as true as the expression. -/
theorem all_map_conjuncts (v : Assignment) (e : Expr) :
    Truth.all (e.conjuncts.map v.value) = e.truth v := by
  induction e using conjunction_induction with
  | and es ih => exact all_map_conjunctsOfAll ih
  | constant => exact v.value_true.symm
  | conjunct e he =>
      rw [he.conjuncts_eq, he.truth_eq]
      exact Truth.and_true _

end Expr

/-- An extra condition is dropped just if it is always true. -/
theorem Plan.extraCondition_eq_none_iff {h : Header} {algorithm : JoinAlgorithm}
    {spec : JoinSpec} {left right : Plan} {extra : Expr} (hextra : spec.extra = some extra) :
    (join h algorithm spec left right).extraCondition true = .ok none ↔
      extra.alwaysTrue = true := by
  simp only [extraCondition, hextra]
  cases htrue : extra.alwaysTrue with
  | true => exact iff_of_true rfl rfl
  | false =>
      refine iff_of_false ?_ Bool.false_ne_true
      cases extra.resolveSides left.fieldNames right.fieldNames <;> nofun

/-- The conjuncts of an expression are together as true as the expression, whatever is true,
false or unknown of them. None of them is a conjunction or the constant true. Their conjunction
has the same conjuncts and refers to the same fields. An expression without conjuncts is always
true, and such an extra condition of a join is dropped. -/
theorem Expr.truth_eq_all_conjuncts (e : Expr) :
    (∀ v : Assignment, Truth.all (e.conjuncts.map v.value) = e.truth v) ∧
      (∀ c ∈ e.conjuncts, (∀ es, c ≠ .and es) ∧ c ≠ .literal (.bool true)) ∧
      (Expr.and e.conjuncts).conjuncts = e.conjuncts ∧
      (Expr.and e.conjuncts).ordinals = e.ordinals ∧
      (e.alwaysTrue = true ↔ e.conjuncts = []) ∧
      ∀ h algorithm spec left right, spec.extra = some e →
        ((Plan.join h algorithm spec left right).extraCondition true = .ok none ↔
          e.conjuncts = []) := by
  refine ⟨fun v => all_map_conjuncts v e, fun c hc => ?_,
    conjuncts_and_of_subset (List.Subset.refl _), ?_, alwaysTrue_iff_conjuncts e, ?_⟩
  · have hconjunct := isConjunct_of_mem_conjuncts e hc
    exact ⟨hconjunct.ne_and, hconjunct.ne_true⟩
  · rw [ordinals, ordinalsOfAll_eq_flatMap, flatMap_ordinals_conjuncts]
  · intro h algorithm spec left right hextra
    rw [Plan.extraCondition_eq_none_iff hextra, alwaysTrue_iff_conjuncts]

end QueryPlan
