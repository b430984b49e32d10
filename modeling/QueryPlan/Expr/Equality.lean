import QueryPlan.Expr.Basic

/-!
# Equality of expressions

Expressions are compared to find a stored result again, so the comparison must say of a
literal that is not a number that it is the same as itself, and must not tell the two
zeros apart. Everything else is compared as it is written: operators, names, ordinals,
types, and the order and number of operands. The hash agrees with the comparison.
-/

namespace QueryPlan

namespace Expr

mutual
/-- The two expressions are written alike, up to `Scalar.same` on their literals. -/
def same : Expr → Expr → Bool
  | .row a, .row b => a == b
  | .side a, .side b => a == b
  | .literal a, .literal b => a.same b
  | .binary op a b, .binary op' a' b' => op == op' && (a.same a' && b.same b')
  | .unary op a, .unary op' a' => op == op' && a.same a'
  | .call f as t, .call f' as' t' => f == f' && (allSame as as' && t == t')
  | .and as, .and bs => allSame as bs
  | .or as, .or bs => allSame as bs
  | _, _ => false
/-- The two lists have equally many members, and they are the same one by one. -/
def allSame : List Expr → List Expr → Bool
  | [], [] => true
  | a :: as, b :: bs => a.same b && allSame as bs
  | _, _ => false
end

instance : BEq Expr := ⟨same⟩

theorem beq_eq_same (a b : Expr) : (a == b) = a.same b := rfl

theorem allSame_eq_beq (as bs : List Expr) : allSame as bs = (as == bs) := by
  induction as generalizing bs with
  | nil => cases bs <;> rfl
  | cons a as ih =>
    cases bs with
    | nil => rfl
    | cons b bs => simp [allSame, ih, beq_eq_same]

mutual
/-- Hashes exactly what `same` compares. -/
def hash : Expr → UInt64
  | .row r =>
    mixHash 11 (mixHash (Hashable.hash r.ordinal) (Hashable.hash (Enumeration.name r.type)))
  | .side c =>
    mixHash 12 (mixHash (mixHash (Hashable.hash c.side) (Hashable.hash c.ordinal))
      (mixHash (Hashable.hash c.name) (Hashable.hash (Enumeration.name c.type))))
  | .literal v => mixHash 13 v.hash
  | .binary op a b =>
    mixHash 14 (mixHash (Hashable.hash (Enumeration.name op)) (mixHash a.hash b.hash))
  | .unary op a => mixHash 15 (mixHash (Hashable.hash (Enumeration.name op)) a.hash)
  | .call f as t =>
    mixHash 16 (mixHash (Hashable.hash f)
      (mixHash (hashAll as) (Hashable.hash (Enumeration.name t))))
  | .and as => mixHash 17 (hashAll as)
  | .or as => mixHash 18 (hashAll as)
/-- Hashes the members in order. -/
def hashAll : List Expr → UInt64
  | [] => 19
  | e :: es => mixHash e.hash (hashAll es)
end

instance : Hashable Expr := ⟨hash⟩

end Expr

end QueryPlan
