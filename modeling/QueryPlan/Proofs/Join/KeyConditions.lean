import QueryPlan.Join.KeyCondition
import QueryPlan.Proofs.Expr.Conjunction
import QueryPlan.Proofs.MapM

/-!
# Which key pairs become conditions

The condition of a key pair needs three things, which are looked at in this order: a conjunct at
the place of the pair that compares for equality, a field at the left ordinal and one at the
right ordinal. The pairs are gone through from the first one on. So all of them become conditions
if each has what it needs, and otherwise the first one that does not is reported, with the first
thing that it lacks.

Conjuncts have no conjuncts but themselves. A condition may therefore be replaced by the
conjunction of the conjuncts at the places of the pairs.
-/

namespace QueryPlan

/-! ### One key pair -/

/-- The expression compares by the comparator. -/
inductive Comparator.Compares : Comparator → Expr → Prop where
  | equals {left right : Expr} : Compares .equals (.binary .eq left right)
  | isNotDistinctFrom {left right : Expr} :
    Compares .isNotDistinctFrom (.binary .isNotDistinctFrom left right)

theorem Comparator.ofConjunct?_eq_some_iff {e : Expr} {c : Comparator} :
    ofConjunct? e = some c ↔ c.Compares e := by
  constructor
  · intro h
    cases e with
    | binary op left right =>
        cases op with
        | eq =>
            cases h
            exact .equals
        | isNotDistinctFrom =>
            cases h
            exact .isNotDistinctFrom
        | _ => cases h
    | _ => cases h
  · rintro (_ | _)
    · rfl
    · rfl

section Pair

variable (conjuncts : List Expr) (leftNames rightNames : List String) (position left right : Nat)

/-- The pair of ordinals has what its condition needs. -/
structure HasCondition : Prop where
  compares : ∃ e c, conjuncts[position]? = some e ∧ Comparator.Compares c e
  left_lt : left < leftNames.length
  right_lt : right < rightNames.length

/-- The condition of the pair: the comparator of its conjunct, and the names at its ordinals. -/
structure IsConditionOf (k : KeyCondition) : Prop where
  compares : ∃ e, conjuncts[position]? = some e ∧ k.comparator.Compares e
  left_eq : leftNames[left]? = some k.left.name
  right_eq : rightNames[right]? = some k.right.name

/-- What the pair lacks first, in the order in which this is looked at. -/
inductive Lacks : PlanError → Prop where
  | conjunct : conjuncts.length ≤ position →
    Lacks (.conjunctMissing position conjuncts.length)
  | comparator {e : Expr} : conjuncts[position]? = some e → (∀ c, ¬ Comparator.Compares c e) →
    Lacks (.comparatorUnsupported e.render)
  | left {e : Expr} {c : Comparator} : conjuncts[position]? = some e → c.Compares e →
    leftNames.length ≤ left → Lacks (.ordinalOutOfRange left leftNames.length)
  | right {e : Expr} {c : Comparator} : conjuncts[position]? = some e → c.Compares e →
    left < leftNames.length → rightNames.length ≤ right →
    Lacks (.ordinalOutOfRange right rightNames.length)

end Pair

section Pair

variable {conjuncts conjuncts' : List Expr} {leftNames rightNames names : List String}
  {position left right i : Nat} {k : KeyCondition} {e : PlanError}

theorem nameAt_of_lt (h : i < names.length) : nameAt names i = .ok ⟨names[i]⟩ := by
  rw [nameAt, List.getElem?_eq_getElem h]

theorem nameAt_of_le (h : names.length ≤ i) :
    nameAt names i = .error (.ordinalOutOfRange i names.length) := by
  rw [nameAt, List.getElem?_eq_none h]

/-- Beside a conjunct that compares, only the names are looked for. -/
theorem keyConditionAt_of_compares {e : Expr} {c : Comparator}
    (he : conjuncts[position]? = some e) (hc : c.Compares e) :
    keyConditionAt conjuncts leftNames rightNames position (left, right) = (do
      let leftName ← nameAt leftNames left
      let rightName ← nameAt rightNames right
      pure ⟨c, leftName, rightName⟩) := by
  simp only [keyConditionAt, he, Comparator.ofConjunct?_eq_some_iff.2 hc]

/-- Only the conjunct at the place of the pair matters, if there is one. -/
theorem keyConditionAt_congr (hconjunct : conjuncts[position]? = conjuncts'[position]?)
    (hlt : position < conjuncts.length) (key : Nat × Nat) :
    keyConditionAt conjuncts leftNames rightNames position key =
      keyConditionAt conjuncts' leftNames rightNames position key := by
  rw [keyConditionAt, keyConditionAt, ← hconjunct, List.getElem?_eq_getElem hlt]

/-- Either the pair has what it needs and its condition is made, or the first thing that it lacks
is reported. -/
theorem keyConditionAt_cases (conjuncts : List Expr) (leftNames rightNames : List String)
    (position left right : Nat) :
    (HasCondition conjuncts leftNames rightNames position left right ∧
        ∃ k, keyConditionAt conjuncts leftNames rightNames position (left, right) = .ok k ∧
          IsConditionOf conjuncts leftNames rightNames position left right k) ∨
      (¬ HasCondition conjuncts leftNames rightNames position left right ∧
        ∃ e, keyConditionAt conjuncts leftNames rightNames position (left, right) = .error e ∧
          Lacks conjuncts leftNames rightNames position left right e) := by
  cases hconjunct : conjuncts[position]? with
  | none =>
      have hle : conjuncts.length ≤ position := List.getElem?_eq_none_iff.1 hconjunct
      refine .inr ⟨fun h => ?_, _, by simp only [keyConditionAt, hconjunct], .conjunct hle⟩
      obtain ⟨e, c, he, -⟩ := h.compares
      rw [hconjunct] at he
      cases he
  | some e =>
      cases hcomparator : Comparator.ofConjunct? e with
      | none =>
          have hnone : ∀ c, ¬ Comparator.Compares c e := fun c hc => by
            rw [Comparator.ofConjunct?_eq_some_iff.2 hc] at hcomparator
            cases hcomparator
          refine .inr ⟨fun h => ?_, _, by simp only [keyConditionAt, hconjunct, hcomparator],
            .comparator hconjunct hnone⟩
          obtain ⟨e', c, he, hc⟩ := h.compares
          rw [hconjunct] at he
          cases he
          exact hnone c hc
      | some c =>
          have hc := Comparator.ofConjunct?_eq_some_iff.1 hcomparator
          rw [keyConditionAt_of_compares hconjunct hc]
          by_cases hleft : left < leftNames.length
          · rw [nameAt_of_lt hleft]
            by_cases hright : right < rightNames.length
            · rw [nameAt_of_lt hright]
              exact .inl ⟨⟨⟨e, c, hconjunct, hc⟩, hleft, hright⟩, _, rfl, ⟨e, hconjunct, hc⟩,
                List.getElem?_eq_getElem hleft, List.getElem?_eq_getElem hright⟩
            · have hle := Nat.le_of_not_lt hright
              rw [nameAt_of_le hle]
              exact .inr ⟨fun h => hright h.right_lt, _, rfl, .right hconjunct hc hleft hle⟩
          · have hle := Nat.le_of_not_lt hleft
            rw [nameAt_of_le hle]
            exact .inr ⟨fun h => hleft h.left_lt, _, rfl, .left hconjunct hc hle⟩

theorem exists_keyConditionAt_iff :
    (∃ k, keyConditionAt conjuncts leftNames rightNames position (left, right) = .ok k) ↔
      HasCondition conjuncts leftNames rightNames position left right := by
  rcases keyConditionAt_cases conjuncts leftNames rightNames position left right with
    ⟨hhas, k, hk, -⟩ | ⟨hhas, e, he, -⟩
  · exact iff_of_true ⟨k, hk⟩ hhas
  · rw [he]
    exact iff_of_false nofun hhas

theorem isConditionOf_of_keyConditionAt
    (h : keyConditionAt conjuncts leftNames rightNames position (left, right) = .ok k) :
    IsConditionOf conjuncts leftNames rightNames position left right k := by
  rcases keyConditionAt_cases conjuncts leftNames rightNames position left right with
    ⟨-, k', hk, his⟩ | ⟨-, e, he, -⟩
  · rw [h] at hk
    cases hk
    exact his
  · rw [h] at he
    cases he

theorem keyConditionAt_eq_error_iff :
    keyConditionAt conjuncts leftNames rightNames position (left, right) = .error e ↔
      Lacks conjuncts leftNames rightNames position left right e := by
  constructor
  · intro h
    rcases keyConditionAt_cases conjuncts leftNames rightNames position left right with
      ⟨-, k, hk, -⟩ | ⟨-, e', he, hlacks⟩
    · rw [h] at hk
      cases hk
    · rw [h] at he
      cases he
      exact hlacks
  · rintro (hle | ⟨hconjunct, hnone⟩ | ⟨hconjunct, hc, hle⟩ | ⟨hconjunct, hc, hlt, hle⟩)
    · simp only [keyConditionAt, List.getElem?_eq_none hle]
    · have hcomparator := Option.eq_none_iff_forall_ne_some.2 fun c hc =>
        hnone c (Comparator.ofConjunct?_eq_some_iff.1 hc)
      simp only [keyConditionAt, hconjunct, hcomparator]
    · rw [keyConditionAt_of_compares hconjunct hc, nameAt_of_le hle]
      rfl
    · rw [keyConditionAt_of_compares hconjunct hc, nameAt_of_lt hlt, nameAt_of_le hle]
      rfl

end Pair

/-! ### All key pairs -/

variable {condition : Expr} {leftNames rightNames : List String} {leftKeys rightKeys : List Nat}

theorem JoinSpec.zip_keys (spec : JoinSpec) : spec.leftKeys.zip spec.rightKeys = spec.keys :=
  (List.zip_of_prod rfl rfl).symm

/-- The pairs with their places. -/
theorem getElem?_zipIdx_zip_iff {i j : Nat} {key : Nat × Nat} :
    (leftKeys.zip rightKeys).zipIdx[i]? = some (key, j) ↔
      j = i ∧ leftKeys[i]? = some key.1 ∧ rightKeys[i]? = some key.2 := by
  rw [List.getElem?_zipIdx, Option.map_eq_some_iff, Nat.zero_add]
  constructor
  · rintro ⟨key', hkey, heq⟩
    cases heq
    exact ⟨rfl, List.getElem?_zip_eq_some.1 hkey⟩
  · rintro ⟨rfl, hkey⟩
    exact ⟨key, List.getElem?_zip_eq_some.2 hkey, rfl⟩

theorem exists_keyConditions_iff :
    (∃ conditions, keyConditions condition leftNames rightNames leftKeys rightKeys =
        .ok conditions) ↔
      ∀ i left right, leftKeys[i]? = some left → rightKeys[i]? = some right →
        HasCondition condition.conjuncts leftNames rightNames i left right := by
  rw [keyConditions, exists_mapM_eq_ok_iff]
  constructor
  · intro h i left right hl hr
    have hpair : (leftKeys.zip rightKeys).zipIdx[i]? = some ((left, right), i) :=
      getElem?_zipIdx_zip_iff.2 ⟨rfl, hl, hr⟩
    exact exists_keyConditionAt_iff.1 (h _ (List.mem_of_getElem? hpair))
  · rintro h ⟨⟨left, right⟩, j⟩ hmem
    obtain ⟨i, hi⟩ := List.mem_iff_getElem?.1 hmem
    obtain ⟨rfl, hl, hr⟩ := getElem?_zipIdx_zip_iff.1 hi
    exact exists_keyConditionAt_iff.2 (h j left right hl hr)

theorem getElem?_of_keyConditions {conditions : List KeyCondition}
    (h : keyConditions condition leftNames rightNames leftKeys rightKeys = .ok conditions) :
    conditions.length = min leftKeys.length rightKeys.length ∧
      ∀ i left right, leftKeys[i]? = some left → rightKeys[i]? = some right →
        ∃ k, conditions[i]? = some k ∧
          IsConditionOf condition.conjuncts leftNames rightNames i left right k := by
  have hall := forall₂_of_mapM_eq_ok h
  refine ⟨by simpa using hall.length_eq.symm, fun i left right hl hr => ?_⟩
  have hpair : (leftKeys.zip rightKeys).zipIdx[i]? = some ((left, right), i) :=
    getElem?_zipIdx_zip_iff.2 ⟨rfl, hl, hr⟩
  obtain ⟨hi, hpair⟩ := List.getElem?_eq_some_iff.1 hpair
  have hat := hall.get hi (hall.length_eq ▸ hi)
  rw [List.get_eq_getElem, hpair] at hat
  exact ⟨_, List.getElem?_eq_getElem _, isConditionOf_of_keyConditionAt hat⟩

theorem keyConditions_eq_error_iff {e : PlanError} :
    keyConditions condition leftNames rightNames leftKeys rightKeys = .error e ↔
      ∃ i left right, leftKeys[i]? = some left ∧ rightKeys[i]? = some right ∧
        Lacks condition.conjuncts leftNames rightNames i left right e ∧
        ∀ j < i, ∀ l r, leftKeys[j]? = some l → rightKeys[j]? = some r →
          HasCondition condition.conjuncts leftNames rightNames j l r := by
  rw [keyConditions, mapM_eq_error_iff]
  constructor
  · rintro ⟨i, ⟨⟨left, right⟩, j⟩, hpair, hfail, hbefore⟩
    obtain ⟨rfl, hl, hr⟩ := getElem?_zipIdx_zip_iff.1 hpair
    refine ⟨j, left, right, hl, hr, keyConditionAt_eq_error_iff.1 hfail, fun i hi l r hl hr => ?_⟩
    exact exists_keyConditionAt_iff.1
      (hbefore i hi ((l, r), i) (getElem?_zipIdx_zip_iff.2 ⟨rfl, hl, hr⟩))
  · rintro ⟨i, left, right, hl, hr, hlacks, hbefore⟩
    refine ⟨i, ((left, right), i), getElem?_zipIdx_zip_iff.2 ⟨rfl, hl, hr⟩,
      keyConditionAt_eq_error_iff.2 hlacks, ?_⟩
    rintro j hj ⟨⟨l, r⟩, k⟩ hpair
    obtain ⟨rfl, hl, hr⟩ := getElem?_zipIdx_zip_iff.1 hpair
    exact exists_keyConditionAt_iff.2 (hbefore k hj l r hl hr)

/-- The conjuncts behind the last pair are not looked at. -/
theorem keyConditions_and_take
    (h : min leftKeys.length rightKeys.length ≤ condition.conjuncts.length) :
    keyConditions (.and (condition.conjuncts.take (min leftKeys.length rightKeys.length)))
        leftNames rightNames leftKeys rightKeys =
      keyConditions condition leftNames rightNames leftKeys rightKeys := by
  rw [keyConditions, keyConditions, Expr.conjuncts_and_of_subset (List.take_subset _ _)]
  apply mapM_congr_of_mem
  rintro ⟨key, j⟩ hmem
  obtain ⟨i, hi⟩ := List.mem_iff_getElem?.1 hmem
  obtain ⟨rfl, hl, hr⟩ := getElem?_zipIdx_zip_iff.1 hi
  have hlt : j < min leftKeys.length rightKeys.length :=
    Nat.lt_min.2 ⟨(List.getElem?_eq_some_iff.1 hl).1, (List.getElem?_eq_some_iff.1 hr).1⟩
  refine (keyConditionAt_congr ?_ (Nat.lt_of_lt_of_le hlt h) key).symm
  rw [List.getElem?_take_of_lt hlt]

/-- All key pairs become conditions just if each has a conjunct at its place that compares for
equality and its two ordinals are in their rows. There is then one condition for each pair, with
the comparator of the conjunct and the names at the ordinals. Otherwise the first pair that does
not have all this is reported, with what it lacks first. A condition with enough conjuncts may be
replaced by the conjunction of as many of them as there are pairs. -/
theorem keyConditions_by_place (condition : Expr) (leftNames rightNames : List String)
    (leftKeys rightKeys : List Nat) :
    ((∃ conditions, keyConditions condition leftNames rightNames leftKeys rightKeys =
        .ok conditions) ↔
      ∀ i left right, leftKeys[i]? = some left → rightKeys[i]? = some right →
        HasCondition condition.conjuncts leftNames rightNames i left right) ∧
    (∀ conditions, keyConditions condition leftNames rightNames leftKeys rightKeys =
        .ok conditions →
      conditions.length = min leftKeys.length rightKeys.length ∧
        ∀ i left right, leftKeys[i]? = some left → rightKeys[i]? = some right →
          ∃ k, conditions[i]? = some k ∧
            IsConditionOf condition.conjuncts leftNames rightNames i left right k) ∧
    (∀ e, keyConditions condition leftNames rightNames leftKeys rightKeys = .error e ↔
      ∃ i left right, leftKeys[i]? = some left ∧ rightKeys[i]? = some right ∧
        Lacks condition.conjuncts leftNames rightNames i left right e ∧
        ∀ j < i, ∀ l r, leftKeys[j]? = some l → rightKeys[j]? = some r →
          HasCondition condition.conjuncts leftNames rightNames j l r) ∧
    (min leftKeys.length rightKeys.length ≤ condition.conjuncts.length →
      keyConditions (.and (condition.conjuncts.take (min leftKeys.length rightKeys.length)))
          leftNames rightNames leftKeys rightKeys =
        keyConditions condition leftNames rightNames leftKeys rightKeys) :=
  ⟨exists_keyConditions_iff, fun _ => getElem?_of_keyConditions,
    fun _ => keyConditions_eq_error_iff, keyConditions_and_take⟩

end QueryPlan
