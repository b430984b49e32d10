import QueryPlan.Proofs.Plan.Leaves

/-!
# Where a column comes from

Most operators hand columns on by their places: a filter hands on the whole row, a projection
the columns that it refers to, a join the rows of both inputs one after the other, an
aggregation the columns by which it groups. A place in the row of a node can be followed down
through such operators until it is a column of a leaf, or until the value at the place is
worked out and comes from no column.

Leaves are counted from the left, within the node that is looked at. The place of a node in a
plan is given by the number of leaves to the left of it.
-/

namespace QueryPlan

namespace Plan

/-- The leaf and the column of that leaf that the place in the row of a node comes from. -/
def origin : Plan → Nat → Option (Nat × Nat)
  | .source _ _, j => some (0, j)
  | .transform _ op input, j =>
    match op with
    | .project exprs _ => (exprs[j]?).bind fun e => (e.bareOrdinal?).bind input.origin
    | .aggregate groupBy _ => (groupBy[j]?).bind input.origin
    | .writer _ => none
    | .filter _ | .sort _ | .limit _ _ | .exchange _ | .screen => input.origin j
  | .join _ _ spec left right, j =>
    if j < left.width then left.origin j
    else if spec.joinType.emitsRight then
      (right.origin (j - left.width)).map fun o => (left.leaves.length + o.1, o.2)
    else none

/-- All nodes in preorder, each with the number of leaves to the left of it. -/
def places : Plan → List (Nat × Plan)
  | .source h op => [(0, .source h op)]
  | .transform h op input => (0, .transform h op input) :: input.places
  | .join h algorithm spec left right =>
    (0, .join h algorithm spec left right) ::
      (left.places ++ right.places.map fun o => (left.leaves.length + o.1, o.2))

/-- The names that are given in the node itself, and not taken from its inputs. -/
def declaredNames : Plan → List String
  | .source h _ | .transform h (.project _ _) _ => h.schema.names
  | .transform _ (.aggregate _ aggregates) _ => aggregates.map Aggregate.name
  | _ => []

theorem origin_lt {p : Plan} {j leaf column : Nat} (h : p.origin j = some (leaf, column)) :
    leaf < p.leaves.length := by
  induction p generalizing j leaf with
  | source h' op =>
      cases h
      exact Nat.zero_lt_one
  | transform h' op input ih =>
      rw [leaves_transform]
      cases op with
      | project exprs allowDuplicates =>
          obtain ⟨e, -, he⟩ := Option.bind_eq_some_iff.1 h
          obtain ⟨i, -, hi⟩ := Option.bind_eq_some_iff.1 he
          exact ih hi
      | aggregate groupBy aggregates =>
          obtain ⟨i, -, hi⟩ := Option.bind_eq_some_iff.1 h
          exact ih hi
      | writer target => cases h
      | filter | sort | limit | exchange | screen => exact ih h
  | join h' algorithm spec left right ihl ihr =>
      rw [leaves_join, List.length_append]
      rw [origin] at h
      by_cases hj : j < left.width
      · rw [if_pos hj] at h
        exact Nat.lt_add_right _ (ihl h)
      · rw [if_neg hj] at h
        by_cases hemits : spec.joinType.emitsRight = true
        · rw [if_pos hemits, Option.map_eq_some_iff] at h
          obtain ⟨⟨m, c⟩, hright, heq⟩ := h
          cases heq
          exact Nat.add_lt_add_left (ihr hright) _
        · rw [if_neg hemits] at h
          cases h

section Places

variable {h : Header} {n : Plan} {place : Nat}

theorem mem_places_transform {op : Transform} {input : Plan} :
    (place, n) ∈ (transform h op input).places ↔
      (place = 0 ∧ n = .transform h op input) ∨ (place, n) ∈ input.places := by
  rw [places, List.mem_cons, Prod.mk.injEq]

theorem mem_places_join {algorithm : JoinAlgorithm} {spec : JoinSpec} {left right : Plan} :
    (place, n) ∈ (join h algorithm spec left right).places ↔
      (place = 0 ∧ n = .join h algorithm spec left right) ∨ (place, n) ∈ left.places ∨
        ∃ below, (below, n) ∈ right.places ∧ place = left.leaves.length + below := by
  rw [places, List.mem_cons, Prod.mk.injEq, List.mem_append, List.mem_map]
  refine or_congr_right (or_congr_right ?_)
  constructor
  · rintro ⟨⟨below, m⟩, hm, heq⟩
    cases heq
    exact ⟨below, hm, rfl⟩
  · rintro ⟨below, hm, rfl⟩
    exact ⟨(below, n), hm, rfl⟩

/-- The leaves of a node are those of the plan from its place on. -/
theorem getElem?_leaves_of_mem_places {p : Plan} {leaf : Nat} (hn : (place, n) ∈ p.places)
    (hleaf : leaf < n.leaves.length) : p.leaves[place + leaf]? = n.leaves[leaf]? := by
  induction p generalizing place with
  | source h op =>
      cases List.mem_singleton.1 hn
      rw [Nat.zero_add]
  | transform h op input ih =>
      rcases mem_places_transform.1 hn with ⟨rfl, rfl⟩ | hn
      · rw [Nat.zero_add]
      · rw [leaves_transform, ih hn]
  | join h algorithm spec left right ihl ihr =>
      rw [leaves_join]
      rcases mem_places_join.1 hn with ⟨rfl, rfl⟩ | hn | ⟨below, hbelow, rfl⟩
      · rw [Nat.zero_add, leaves_join]
      · have hin := ihl hn
        rw [List.getElem?_eq_getElem hleaf] at hin
        rw [List.getElem?_append_left (List.getElem?_eq_some_iff.1 hin).1, ihl hn]
      · rw [Nat.add_assoc, List.getElem?_append_right (Nat.le_add_right _ _),
          Nat.add_sub_cancel_left, ihr hbelow]

end Places

end Plan

end QueryPlan
