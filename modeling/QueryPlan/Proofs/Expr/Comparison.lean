import Mathlib.Data.List.Forall2
import QueryPlan.Proofs.Expr.Canonical
import QueryPlan.Proofs.Expr.Conjunction
import QueryPlan.Proofs.Expr.References

/-!
# What the comparison of expressions tells

Expressions that are the same need not be equal, since their literals may differ in
representation. Whatever the planner reads of an expression, its type, its references, its
conjuncts, whether it is always true, it reads of the canonical form as well. So expressions that
are the same cannot be told apart by it, and an answer that is stored for one of them may be given
for the other.

Nor are they told apart by a replacement of their references. They have the same references in the
same order, so the same is brought together for both, and it is put into the same places.
-/

namespace QueryPlan

namespace Expr

variable {a b : Expr} {as bs : List Expr}

/-- What is read of the canonical form only is the same for expressions that are the same. -/
theorem read_eq_of_beq {β : Type} {read : Expr → β} (hread : ∀ e, read e.canonical = read e)
    (h : (a == b) = true) : read a = read b := by
  rw [← hread a, (beq_iff a b).1 h, hread b]

theorem map_read_eq_of_beq {β : Type} {read : Expr → β} (hread : ∀ e, read e.canonical = read e)
    (h : (as == bs) = true) : as.map read = bs.map read := by
  have hcanonical : (as.map canonical).map read = (bs.map canonical).map read := by
    rw [(beq_list_iff as bs).1 h]
  rwa [List.map_map, List.map_map, funext (f := read ∘ canonical) hread] at hcanonical

/-- The reference, if the expression is nothing but a reference to a field of the row. -/
def rowRef? : Expr → Option RowRef
  | .row r => some r
  | _ => none

theorem bareOrdinal?_eq_map (e : Expr) : e.bareOrdinal? = e.rowRef?.map RowRef.ordinal := by
  cases e <;> rfl

theorem rowRef?_canonical (e : Expr) : e.canonical.rowRef? = e.rowRef? := by
  cases e <;> rfl

theorem bareOrdinal?_canonical (e : Expr) : e.canonical.bareOrdinal? = e.bareOrdinal? := by
  rw [bareOrdinal?_eq_map, rowRef?_canonical, bareOrdinal?_eq_map]

theorem type_canonical : ∀ e : Expr, e.canonical.type = e.type
  | .row _ | .side _ | .call _ _ _ | .and _ | .or _ => rfl
  | .literal v => v.type_canonical
  | .binary _ left _ => by rw [canonical, type, type, type_canonical left]
  | .unary .neg operand => type_canonical operand
  | .unary .not _ | .unary .isNull _ | .unary .isNotNull _ => rfl

mutual
theorem refs_canonical : ∀ e : Expr, e.canonical.refs = e.refs
  | .row _ | .side _ | .literal _ => rfl
  | .binary _ left right => by
      rw [canonical, refs, refs, refs_canonical left, refs_canonical right]
  | .unary _ operand => refs_canonical operand
  | .call _ args _ => refsOfAll_canonicalAll args
  | .and es | .or es => refsOfAll_canonicalAll es
theorem refsOfAll_canonicalAll : ∀ es : List Expr, refsOfAll (canonicalAll es) = refsOfAll es
  | [] => rfl
  | e :: es => by
      rw [canonicalAll, refsOfAll, refsOfAll, refs_canonical e, refsOfAll_canonicalAll es]
end

theorem ordinals_canonical (e : Expr) : e.canonical.ordinals = e.ordinals := by
  rw [← map_ordinal_refs, refs_canonical, map_ordinal_refs]

mutual
theorem conjuncts_canonical : ∀ e : Expr, e.canonical.conjuncts = e.conjuncts.map canonical
  | .and es => conjunctsOfAll_canonicalAll es
  | .literal (.bool true) | .literal (.bool false) | .literal .null | .literal (.int64 _)
  | .literal (.float64 _) | .literal (.utf8 _) | .literal (.date _) | .row _ | .side _
  | .binary _ _ _ | .unary _ _ | .call _ _ _ | .or _ => rfl
theorem conjunctsOfAll_canonicalAll : ∀ es : List Expr,
    conjunctsOfAll (canonicalAll es) = (conjunctsOfAll es).map canonical
  | [] => rfl
  | e :: es => by
      rw [canonicalAll, conjunctsOfAll, conjunctsOfAll, conjuncts_canonical e,
        conjunctsOfAll_canonicalAll es, List.map_append]
end

theorem alwaysTrue_canonical (e : Expr) : e.canonical.alwaysTrue = e.alwaysTrue := by
  rw [Bool.eq_iff_iff, alwaysTrue_iff_conjuncts, alwaysTrue_iff_conjuncts, conjuncts_canonical,
    List.map_eq_nil_iff]

/-- The conjuncts of expressions that are the same are the same one by one. -/
theorem forall₂_conjuncts_of_beq (h : (a == b) = true) :
    List.Forall₂ (fun c d => (c == d) = true) a.conjuncts b.conjuncts := by
  have hconjuncts : a.conjuncts.map canonical = b.conjuncts.map canonical := by
    rw [← conjuncts_canonical, (beq_iff a b).1 h, conjuncts_canonical]
  rw [← List.forall₂_eq_eq_eq, List.forall₂_map_left_iff, List.forall₂_map_right_iff]
    at hconjuncts
  exact hconjuncts.imp fun c d => (beq_iff c d).2

/-- The replacements, every double in them by its canonical bits. -/
def canonicalReplacements (replacements : List (RowRef × Expr)) : List (RowRef × Expr) :=
  replacements.map fun a => (a.1, a.2.canonical)

theorem canonicalReplacements_append (as bs : List (RowRef × Expr)) :
    canonicalReplacements (as ++ bs) = canonicalReplacements as ++ canonicalReplacements bs :=
  List.map_append

mutual
/-- The canonical form is filled with canonical forms. -/
theorem Filled.canonical {e e' : Expr} {as : List (RowRef × Expr)} :
    Filled e as e' → Filled e.canonical (canonicalReplacements as) e'.canonical
  | .row => .row
  | .side => .side
  | .literal => .literal
  | .binary hl hr => by
      rw [canonicalReplacements_append]
      exact .binary hl.canonical hr.canonical
  | .unary h => .unary h.canonical
  | .call h => .call h.canonical
  | .and h => .and h.canonical
  | .or h => .or h.canonical
theorem FilledAll.canonical {es es' : List Expr} {as : List (RowRef × Expr)} :
    FilledAll es as es' → FilledAll (canonicalAll es) (canonicalReplacements as) (canonicalAll es')
  | .nil => .nil
  | .cons h hs => by
      rw [canonicalReplacements_append]
      exact .cons h.canonical hs.canonical
end

section Replacement

variable {ε : Type} {brought : Except ε (List (RowRef × Expr))} {x y : Except ε Expr}

/-- What is put into expressions that are the same gives expressions that are the same. -/
theorem FilledWith.failed_or_beq (h : (a == b) = true) (hx : FilledWith a brought x)
    (hy : FilledWith b brought y) :
    (∃ error, x = .error error ∧ y = .error error) ∨
      ∃ a' b', x = .ok a' ∧ y = .ok b' ∧ (a' == b') = true := by
  cases hx with
  | failed =>
      cases hy
      exact .inl ⟨_, rfl, rfl⟩
  | filled ha =>
      cases hy with
      | filled hb =>
          have hb' := hb.canonical
          rw [← (beq_iff a b).1 h] at hb'
          exact .inr ⟨_, _, rfl, rfl, (beq_iff _ _).2 (ha.canonical.unique hb' rfl)⟩

/-- A replacement fails alike on expressions that are the same, or makes expressions of them that
are the same. -/
theorem mapRefs_failed_or_beq (h : (a == b) = true) (f : RowRef → Except ε Expr) :
    (∃ error, a.mapRefs f = .error error ∧ b.mapRefs f = .error error) ∨
      ∃ a' b', a.mapRefs f = .ok a' ∧ b.mapRefs f = .ok b' ∧ (a' == b') = true := by
  have hb := filledWith_mapRefs f b
  rw [← read_eq_of_beq refs_canonical h] at hb
  exact (filledWith_mapRefs f a).failed_or_beq h hb

end Replacement

/-- The comparison of expressions is an equivalence that the hash respects. It distinguishes two
doubles unless neither is a number, both are zero, or they are equal. Expressions that are the same
have the same type and the same references, one is always true if the other is, their conjuncts
are the same one by one, and a replacement of their references fails alike on both or makes
expressions that are the same. -/
theorem beq_sound (a b : Expr) :
    (a == a) = true ∧ ((a == b) = true → (b == a) = true) ∧
      (∀ c, (a == b) = true → (b == c) = true → (a == c) = true) ∧
      (∀ x y : Double, (Expr.literal (.float64 x) == Expr.literal (.float64 y)) = true ↔
        (x.isNaN = true ∧ y.isNaN = true) ∨ (x.isZero = true ∧ y.isZero = true) ∨ x = y) ∧
      ((a == b) = true → Hashable.hash a = Hashable.hash b ∧ a.type = b.type ∧
        a.ordinals = b.ordinals ∧ a.alwaysTrue = b.alwaysTrue ∧
        List.Forall₂ (fun c d => (c == d) = true) a.conjuncts b.conjuncts ∧
        ∀ (ε : Type) (f : RowRef → Except ε Expr),
          (∃ error, a.mapRefs f = .error error ∧ b.mapRefs f = .error error) ∨
            ∃ a' b', a.mapRefs f = .ok a' ∧ b.mapRefs f = .ok b' ∧ (a' == b') = true) := by
  refine ⟨BEq.rfl, BEq.symm, fun c => BEq.trans, fun x y => Double.same_iff_values, fun h => ?_⟩
  exact ⟨LawfulHashable.hash_eq a b h, read_eq_of_beq type_canonical h,
    read_eq_of_beq ordinals_canonical h, read_eq_of_beq alwaysTrue_canonical h,
    forall₂_conjuncts_of_beq h, fun ε f => mapRefs_failed_or_beq h f⟩

/-- A sum with the double of these bits. -/
def plusDouble (bits : UInt64) : Expr :=
  .call "plus" [.row ⟨0, .float64⟩, .literal (.float64 ⟨bits⟩)] .float64

/-- The sums with the two zeros are not one expression, but they are the same. -/
theorem beq_sound_zeros : plusDouble 0 ≠ plusDouble 0x8000000000000000 ∧
    (plusDouble 0 == plusDouble 0x8000000000000000) = true ∧
    Hashable.hash (plusDouble 0) = Hashable.hash (plusDouble 0x8000000000000000) := by
  obtain ⟨-, -, -, -, hsame⟩ := beq_sound (plusDouble 0) (plusDouble 0x8000000000000000)
  have hbeq : (plusDouble 0 == plusDouble 0x8000000000000000) = true := by decide +kernel
  exact ⟨by simp [plusDouble], hbeq, (hsame hbeq).1⟩

end Expr

end QueryPlan
