import Mathlib.Data.List.ReduceOption
import QueryPlan.Pass.StarColumns
import QueryPlan.Proofs.Names
import QueryPlan.Proofs.Plan.Leaves
import QueryPlan.Proofs.Text.Prefixes

/-!
# Which leaves get a prefix

A node is ambiguous if its row has a star column beside another column. A leaf with a star
column needs a prefix if an ambiguous node comes before it in preorder, and the leaves that
need one are numbered from left to right. This is said here of the plan alone, before any
walk; `leafMarks` says the same the way a walk finds it out, with a flag that is set at the
first ambiguous node.

Names under the prefixes of different leaves are not alike, because the number can be read
off the lower-case form.
-/

namespace QueryPlan

namespace StarColumn

/-- The node shows that prefixes are needed: a projection that hands on a star column beside
another output, or another operator with a star column and another column in its row. The
boundary of the plan does not count. -/
def isAmbiguous : Plan → Bool
  | .transform h (.project exprs _) input => isProjected input.schema exprs && 1 < h.schema.width
  | .transform _ .screen _ | .transform _ (.writer _) _ => false
  | p => inRow p.schema && 1 < p.width

/-- The leaf at the site has a star column, and an ambiguous node comes before it. -/
def needsPrefix (site : List Plan × Plan) : Bool :=
  inRow site.2.schema && site.1.any isAmbiguous

/-- Numbers those that are marked, from left to right. -/
def numberFrom : Nat → List Bool → List (Option Nat)
  | _, [] => []
  | k, true :: marks => some k :: numberFrom (k + 1) marks
  | k, false :: marks => none :: numberFrom k marks

/-- The numbers of the leaves that need a prefix. -/
def tableIds (p : Plan) : List (Option Nat) := numberFrom 0 (p.leafSites.map needsPrefix)

/-- Which of the leaves among the nodes need a prefix, if `seen` says whether an ambiguous
node came before all of them. -/
def leafMarks (seen : Bool) : List Plan → List Bool
  | [] => []
  | n :: rest =>
    if n.isLeaf then (inRow n.schema && seen) :: leafMarks (seen || isAmbiguous n) rest
    else leafMarks (seen || isAmbiguous n) rest

theorem map_needsPrefix_sitesFrom (before nodes : List Plan) :
    (Plan.sitesFrom before nodes).map needsPrefix =
      leafMarks (before.any isAmbiguous) nodes := by
  induction nodes generalizing before with
  | nil => rfl
  | cons n rest ih =>
      have hrest := ih (before ++ [n])
      rw [List.any_append, List.any_cons, List.any_nil, Bool.or_false] at hrest
      cases hleaf : n.isLeaf with
      | true =>
          rw [Plan.sitesFrom, if_pos hleaf, leafMarks, if_pos hleaf, List.map_cons, hrest]
          rfl
      | false =>
          rw [Plan.sitesFrom, leafMarks, hleaf, if_neg Bool.false_ne_true,
            if_neg Bool.false_ne_true, hrest]

theorem map_needsPrefix_leafSites (p : Plan) :
    p.leafSites.map needsPrefix = leafMarks false p.preorder :=
  map_needsPrefix_sitesFrom [] p.preorder

theorem leafMarks_append (seen : Bool) (xs ys : List Plan) :
    leafMarks seen (xs ++ ys) =
      leafMarks seen xs ++ leafMarks (seen || xs.any isAmbiguous) ys := by
  induction xs generalizing seen with
  | nil => simp [leafMarks]
  | cons n xs ih =>
      rw [List.cons_append, leafMarks, leafMarks, ih, List.any_cons, Bool.or_assoc]
      cases n.isLeaf <;> rfl

theorem length_leafMarks (seen : Bool) (nodes : List Plan) :
    (leafMarks seen nodes).length = (nodes.filter Plan.isLeaf).length := by
  induction nodes generalizing seen with
  | nil => rfl
  | cons n rest ih =>
      cases hleaf : n.isLeaf with
      | true => simp [leafMarks, hleaf, ih]
      | false => simp [leafMarks, hleaf, ih]

/-- Without an ambiguous node no leaf needs a prefix. -/
theorem notMem_leafMarks {nodes : List Plan} (hnone : nodes.any isAmbiguous = false) :
    true ∉ leafMarks false nodes := by
  induction nodes with
  | nil => simp [leafMarks]
  | cons n rest ih =>
      rw [List.any_cons, Bool.or_eq_false_iff] at hnone
      rw [leafMarks, hnone.1]
      cases n.isLeaf <;> simp [ih hnone.2]

section Numbering

variable {k : Nat} {marks : List Bool}

@[simp] theorem length_numberFrom (k : Nat) (marks : List Bool) :
    (numberFrom k marks).length = marks.length := by
  induction marks generalizing k with
  | nil => rfl
  | cons mark marks ih => cases mark <;> simp [numberFrom, ih]

theorem numberFrom_append (k : Nat) (xs ys : List Bool) :
    numberFrom k (xs ++ ys) = numberFrom k xs ++ numberFrom (k + xs.count true) ys := by
  induction xs generalizing k with
  | nil => rfl
  | cons mark xs ih =>
      cases mark with
      | true => simp [numberFrom, ih, Nat.add_assoc, Nat.add_comm 1]
      | false => simp [numberFrom, ih]

theorem numberFrom_of_notMem (h : true ∉ marks) :
    numberFrom k marks = List.replicate marks.length none := by
  induction marks with
  | nil => rfl
  | cons mark marks ih =>
      rw [List.mem_cons, not_or] at h
      cases mark with
      | true => exact absurd rfl h.1
      | false => rw [numberFrom, ih h.2, List.length_cons, List.replicate_succ]

/-- A marked one has the number of marked ones before it. -/
theorem getElem?_numberFrom (k : Nat) (marks : List Bool) (i : Nat) :
    (numberFrom k marks)[i]? = marks[i]?.map fun mark =>
      if mark then some (k + (marks.take i).count true) else none := by
  induction marks generalizing k i with
  | nil => rfl
  | cons mark marks ih =>
      cases i with
      | zero => cases mark <;> rfl
      | succ i =>
          cases mark with
          | true => simp [numberFrom, ih, Nat.add_comm, Nat.add_left_comm]
          | false => simp [numberFrom, ih]

/-- The numbers go from left to right, and none is left out. -/
theorem reduceOption_numberFrom (k : Nat) (marks : List Bool) :
    (numberFrom k marks).reduceOption = List.range' k (marks.count true) := by
  induction marks generalizing k with
  | nil => rfl
  | cons mark marks ih =>
      cases mark with
      | true =>
          rw [numberFrom, List.reduceOption_cons_of_some, ih, List.count_cons_self,
            List.range'_succ]
      | false =>
          rw [numberFrom, List.reduceOption_cons_of_none, ih,
            List.count_cons_of_ne Bool.false_ne_true]

theorem le_of_mem_numberFrom {l : Nat} (h : some l ∈ numberFrom k marks) : k ≤ l := by
  rw [← List.reduceOption_mem_iff, reduceOption_numberFrom, List.mem_range'_1] at h
  exact h.1

theorem isSome_numberFrom (k : Nat) (marks : List Bool) :
    (numberFrom k marks).map Option.isSome = marks := by
  induction marks generalizing k with
  | nil => rfl
  | cons mark marks ih => cases mark <;> simp [numberFrom, ih]

/-- No number is given twice. -/
theorem eq_of_getElem?_numberFrom {i j l : Nat}
    (hi : (numberFrom k marks)[i]? = some (some l))
    (hj : (numberFrom k marks)[j]? = some (some l)) : i = j := by
  induction marks generalizing k i j with
  | nil => cases hi
  | cons mark marks ih =>
      cases mark with
      | true =>
          -- The first number is smaller than all that follow.
          have hlater : ∀ {m : Nat}, (numberFrom (k + 1) marks)[m]? = some (some k) → False :=
            fun hm => Nat.not_succ_le_self k (le_of_mem_numberFrom (List.mem_of_getElem? hm))
          cases i with
          | zero =>
              cases hi
              cases j with
              | zero => rfl
              | succ j => exact (hlater hj).elim
          | succ i =>
              cases j with
              | zero =>
                  cases hj
                  exact (hlater hi).elim
              | succ j => rw [ih hi hj]
      | false =>
          cases i with
          | zero => cases hi
          | succ i =>
              cases j with
              | zero => cases hj
              | succ j => rw [ih hi hj]

end Numbering

private theorem lowerChar_T : Text.lowerChar 'T' = ['t'] ∧ 'T' ≠ 'Σ' := by decide +kernel

private theorem isPlain_dollar : Text.IsPlain '$' := by
  have h : '$' ≠ 'Σ' ∧ Text.lowerChar '$' = ['$'] ∧ Text.isCased '$' = false ∧
      Text.isCaseIgnorable '$' = false := by
    decide +kernel
  exact ⟨h.1, h.2.1, h.2.2.1, h.2.2.2⟩

theorem toList_withPrefix (k : Nat) (name : String) :
    (withPrefix k name).toList = 'T' :: ((toString k).toList ++ '$' :: name.toList) := by
  simp [withPrefix]

/-- The name starts with the prefix of the table of number `i`. -/
def startsWithTable (i : Nat) (name : String) : Prop :=
  ("T" ++ toString i ++ "$").toList <+: name.toList

theorem startsWithTable_iff {i : Nat} {name : String} :
    startsWithTable i name ↔
      ∃ rest, name.toList = 'T' :: ((toString i).toList ++ '$' :: rest) := by
  have hchars : ("T" ++ toString i ++ "$").toList = 'T' :: ((toString i).toList ++ ['$']) := by
    simp
  rw [startsWithTable, hchars]
  constructor
  · rintro ⟨rest, hrest⟩
    exact ⟨rest, by simpa using hrest.symm⟩
  · rintro ⟨rest, hrest⟩
    exact ⟨rest, by simpa using hrest.symm⟩

theorem not_startsWithTable {i : Nat} {name : String} (h : name.toList.head? ≠ some 'T') :
    ¬ startsWithTable i name := by
  rw [startsWithTable_iff]
  rintro ⟨rest, hrest⟩
  rw [hrest] at h
  exact h rfl

/-- A name under a prefix starts with this prefix and with no other. -/
theorem startsWithTable_withPrefix {i k : Nat} {name : String} :
    startsWithTable i (withPrefix k name) ↔ i = k := by
  rw [startsWithTable_iff, toList_withPrefix]
  constructor
  · rintro ⟨rest, hrest⟩
    exact (Text.eq_of_toString_append_eq (by decide) (List.cons.inj hrest).2).symm
  · rintro rfl
    exact ⟨name.toList, rfl⟩

/-- A number behind a name neither makes nor unmakes a prefix, since it has no dollar sign. -/
theorem startsWithTable_numbered {i k : Nat} {name : String} :
    startsWithTable i (Names.numbered name k) ↔ startsWithTable i name := by
  have hnumbered : (Names.numbered name k).toList = name.toList ++ (toString k).toList := by
    rw [Names.numbered, String.toList_append]
  have hlast : ("T" ++ toString i ++ "$").toList.getLast? = some '$' := by
    rw [String.toList_append, List.getLast?_append]
    rfl
  rw [startsWithTable, startsWithTable, hnumbered]
  exact Text.prefix_append_toString_iff hlast (by decide)

/-- The prefix in lower case has the number as it was. -/
theorem exists_toList_fold_withPrefix (k : Nat) (name : String) :
    ∃ rest, (Names.fold (withPrefix k name)).toList =
      't' :: ((toString k).toList ++ '$' :: rest) := by
  have hplain : ∀ c ∈ (toString k).toList ++ ['$'], Text.IsPlain c := by
    intro c hc
    rcases List.mem_append.1 hc with hc | hc
    · exact Text.isPlain_of_mem_toString hc
    · exact List.mem_singleton.1 hc ▸ isPlain_dollar
  obtain ⟨inWord, hlower⟩ := Text.exists_lowerFrom_append hplain
    (if Text.isCaseIgnorable 'T' then false else Text.isCased 'T') name.toList
  refine ⟨Text.lowerFrom inWord name.toList, ?_⟩
  rw [List.append_assoc, List.append_assoc] at hlower
  rw [Names.fold, Text.lowercase, toList_withPrefix, String.toList_ofList,
    Text.lowerFrom_cons_of_ne lowerChar_T.2, lowerChar_T.1]
  exact congrArg ('t' :: ·) hlower

/-- Names under different prefixes are not alike. -/
theorem fold_withPrefix_ne {k l : Nat} (h : k ≠ l) (n m : String) :
    Names.fold (withPrefix k n) ≠ Names.fold (withPrefix l m) := by
  intro heq
  obtain ⟨x, hx⟩ := exists_toList_fold_withPrefix k n
  obtain ⟨y, hy⟩ := exists_toList_fold_withPrefix l m
  rw [heq, hy, List.cons.injEq] at hx
  exact h (Text.eq_of_toString_append_eq (by decide) hx.2).symm

end StarColumn

end QueryPlan
