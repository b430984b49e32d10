import QueryPlan.Expr.Equality

/-!
# When two expressions are the same

Doubles are the same if their canonical bits are, and everything else in an expression is compared
as it is written. So every expression may be put into a canonical form, in which each double has
its canonical bits, and expressions are the same just if their canonical forms are equal. Sameness
is therefore an equivalence, and what is read of the canonical form only is the same for
expressions that are the same. The hash is read in this way.
-/

namespace QueryPlan

namespace Double

variable (x y : Double)

/-- No double is both a zero and not a number, and all but these keep their bits. -/
theorem canonical_cases :
    (x.isNaN = true ∧ x.isZero = false ∧ x.canonical = 0x7FF8000000000000) ∨
      (x.isNaN = false ∧ x.isZero = true ∧ x.canonical = 0) ∨
      (x.isNaN = false ∧ x.isZero = false ∧ x.canonical = x.bits) := by
  rw [canonical]
  cases hnan : x.isNaN with
  | true =>
      have hexponent : x.exponentBits = 2047 := eq_of_beq (Bool.and_eq_true_iff.1 hnan).1
      exact .inl ⟨rfl, by rw [isZero, hexponent]; rfl, rfl⟩
  | false =>
      cases x.isZero with
      | true => exact .inr (.inl ⟨rfl, rfl, rfl⟩)
      | false => exact .inr (.inr ⟨rfl, rfl, rfl⟩)

theorem isNaN_canonical : (⟨x.canonical⟩ : Double).isNaN = x.isNaN := by
  rcases canonical_cases x with ⟨hnan, -, hbits⟩ | ⟨hnan, -, hbits⟩ | ⟨-, -, hbits⟩
  · rw [hbits, hnan]
    decide
  · rw [hbits, hnan]
    decide
  · rw [hbits]

theorem isZero_canonical : (⟨x.canonical⟩ : Double).isZero = x.isZero := by
  rcases canonical_cases x with ⟨-, hzero, hbits⟩ | ⟨-, hzero, hbits⟩ | ⟨-, -, hbits⟩
  · rw [hbits, hzero]
    decide
  · rw [hbits, hzero]
    decide
  · rw [hbits]

theorem canonical_canonical : (⟨x.canonical⟩ : Double).canonical = x.canonical := by
  rcases canonical_cases x with ⟨-, -, hbits⟩ | ⟨-, -, hbits⟩ | ⟨-, -, hbits⟩
  · rw [hbits]
    rfl
  · rw [hbits]
    rfl
  · rw [hbits]
    exact hbits

variable {x y}

theorem canonical_of_isNaN (h : x.isNaN = true) : x.canonical = 0x7FF8000000000000 :=
  if_pos h

theorem canonical_of_isZero (h : x.isZero = true) : x.canonical = 0 := by
  rcases canonical_cases x with ⟨-, hzero, -⟩ | ⟨-, -, hbits⟩ | ⟨-, hzero, -⟩
  · exact absurd (hzero.symm.trans h) Bool.false_ne_true
  · exact hbits
  · exact absurd (hzero.symm.trans h) Bool.false_ne_true

/-- Two doubles are the same just if neither is a number, both are zero, or they are equal. -/
theorem same_iff_values : x.same y = true ↔
    (x.isNaN = true ∧ y.isNaN = true) ∨ (x.isZero = true ∧ y.isZero = true) ∨ x = y := by
  rw [same_iff]
  constructor
  · intro h
    have hnan : x.isNaN = y.isNaN := by rw [← isNaN_canonical x, h, isNaN_canonical]
    have hzero : x.isZero = y.isZero := by rw [← isZero_canonical x, h, isZero_canonical]
    rcases canonical_cases y with ⟨hy, -, -⟩ | ⟨-, hy, -⟩ | ⟨hy, hy', hbits⟩
    · exact .inl ⟨hnan.trans hy, hy⟩
    · exact .inr (.inl ⟨hzero.trans hy, hy⟩)
    · rw [hbits, canonical, hnan, hzero, hy, hy'] at h
      exact .inr (.inr (congrArg Double.mk h))
  · rintro (⟨hx, hy⟩ | ⟨hx, hy⟩ | rfl)
    · rw [canonical_of_isNaN hx, canonical_of_isNaN hy]
    · rw [canonical_of_isZero hx, canonical_of_isZero hy]
    · rfl

end Double

namespace Scalar

/-- The constant, a double by its canonical bits. -/
def canonical : Scalar → Scalar
  | .float64 x => .float64 ⟨x.canonical⟩
  | v => v

theorem same_iff (a b : Scalar) : a.same b = true ↔ a.canonical = b.canonical := by
  cases a <;> cases b <;> simp [same, canonical, Double.same_iff]

theorem type_canonical (v : Scalar) : v.canonical.type = v.type := by
  cases v <;> rfl

theorem hash_canonical (v : Scalar) : v.canonical.hash = v.hash := by
  cases v with
  | float64 x => rw [canonical, hash, hash, Double.canonical_canonical]
  | _ => rfl

end Scalar

namespace Expr

mutual
/-- The expression, every double in it by its canonical bits. -/
def canonical : Expr → Expr
  | .row r => .row r
  | .side c => .side c
  | .literal v => .literal v.canonical
  | .binary op left right => .binary op left.canonical right.canonical
  | .unary op operand => .unary op operand.canonical
  | .call function args result => .call function (canonicalAll args) result
  | .and es => .and (canonicalAll es)
  | .or es => .or (canonicalAll es)
/-- The members, every double in them by its canonical bits. -/
def canonicalAll : List Expr → List Expr
  | [] => []
  | e :: es => e.canonical :: canonicalAll es
end

theorem canonicalAll_eq_map (es : List Expr) : canonicalAll es = es.map canonical := by
  induction es with
  | nil => rfl
  | cons e es ih => rw [canonicalAll, ih, List.map_cons]

mutual
theorem same_iff : ∀ a b : Expr, a.same b = true ↔ a.canonical = b.canonical
  | .row _, b | .side _, b => by cases b <;> simp [same, canonical]
  | .literal _, b => by cases b <;> simp [same, canonical, Scalar.same_iff]
  | .binary _ left right, b => by
      cases b <;> simp [same, canonical, same_iff left, same_iff right]
  | .unary _ operand, b => by cases b <;> simp [same, canonical, same_iff operand]
  | .call _ args _, b => by cases b <;> simp [same, canonical, allSame_iff args]
  | .and es, b | .or es, b => by cases b <;> simp [same, canonical, allSame_iff es]
theorem allSame_iff :
    ∀ as bs : List Expr, allSame as bs = true ↔ canonicalAll as = canonicalAll bs
  | [], bs => by cases bs <;> simp [allSame, canonicalAll]
  | a :: as, bs => by cases bs <;> simp [allSame, canonicalAll, same_iff a, allSame_iff as]
end

theorem beq_iff (a b : Expr) : (a == b) = true ↔ a.canonical = b.canonical := same_iff a b

theorem beq_list_iff (as bs : List Expr) :
    (as == bs) = true ↔ as.map canonical = bs.map canonical := by
  rw [← allSame_eq_beq, allSame_iff, canonicalAll_eq_map, canonicalAll_eq_map]

instance : EquivBEq Expr where
  rfl := (beq_iff _ _).2 rfl
  symm h := (beq_iff _ _).2 ((beq_iff _ _).1 h).symm
  trans h h' := (beq_iff _ _).2 (((beq_iff _ _).1 h).trans ((beq_iff _ _).1 h'))

mutual
theorem hash_canonical : ∀ e : Expr, e.canonical.hash = e.hash
  | .row _ | .side _ => rfl
  | .literal v => by rw [canonical, hash, hash, v.hash_canonical]
  | .binary _ left right => by
      rw [canonical, hash, hash, hash_canonical left, hash_canonical right]
  | .unary _ operand => by rw [canonical, hash, hash, hash_canonical operand]
  | .call _ args _ => by rw [canonical, hash, hash, hashAll_canonicalAll args]
  | .and es | .or es => by rw [canonical, hash, hash, hashAll_canonicalAll es]
theorem hashAll_canonicalAll : ∀ es : List Expr, hashAll (canonicalAll es) = hashAll es
  | [] => rfl
  | e :: es => by
      rw [canonicalAll, hashAll, hashAll, hash_canonical e, hashAll_canonicalAll es]
end

instance : LawfulHashable Expr where
  hash_eq a b h := by
    have hcanonical : a.canonical.hash = b.canonical.hash := by rw [(beq_iff a b).1 h]
    rwa [hash_canonical, hash_canonical] at hcanonical

end Expr

end QueryPlan
