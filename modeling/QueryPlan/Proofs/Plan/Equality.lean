import QueryPlan.Plan.Equality
import QueryPlan.Proofs.Expr.Canonical

/-!
# When two plans are the same

The comparison of plans calls the comparisons of everything that a node carries, down to the
literals. Identities are not looked at, and literals are not compared by representation. So a plan
may be put into a canonical form, too, in which no node has an identity of its own and every double
has its canonical bits, and plans are the same just if their canonical forms are equal.

That everything is the same as itself then needs no further look at what a node carries, and
neither does that a plan is the same as another one whose nodes carry equal data.
-/

namespace QueryPlan

namespace Transform

/-- The operator, every double in it by its canonical bits. -/
def canonical : Transform → Transform
  | .filter predicate => .filter predicate.canonical
  | .project exprs allowDuplicates => .project (exprs.map Expr.canonical) allowDuplicates
  | op => op

theorem beq_iff (op op' : Transform) : (op == op') = true ↔ op.canonical = op'.canonical := by
  cases op with
  | filter predicate =>
      cases op' with
      | filter predicate' =>
          change (predicate == predicate') = true ↔ _
          rw [canonical, canonical, filter.injEq, Expr.beq_iff]
      | _ => exact iff_of_false nofun nofun
  | project exprs allowDuplicates =>
      cases op' with
      | project exprs' allowDuplicates' =>
          change (exprs == exprs' && allowDuplicates == allowDuplicates') = true ↔ _
          rw [canonical, canonical, project.injEq, Bool.and_eq_true, Expr.beq_list_iff, beq_iff_eq]
      | _ => exact iff_of_false nofun nofun
  | aggregate groupBy aggregates =>
      cases op' with
      | aggregate groupBy' aggregates' =>
          change (groupBy == groupBy' && aggregates == aggregates') = true ↔
            aggregate groupBy aggregates = aggregate groupBy' aggregates'
          rw [aggregate.injEq, Bool.and_eq_true, beq_iff_eq, beq_iff_eq]
      | _ => exact iff_of_false nofun nofun
  | sort order =>
      cases op' with
      | sort order' =>
          change (order == order') = true ↔ sort order = sort order'
          rw [sort.injEq, beq_iff_eq]
      | _ => exact iff_of_false nofun nofun
  | limit offset count =>
      cases op' with
      | limit offset' count' =>
          change (offset == offset' && count == count') = true ↔
            limit offset count = limit offset' count'
          rw [limit.injEq, Bool.and_eq_true, beq_iff_eq, beq_iff_eq]
      | _ => exact iff_of_false nofun nofun
  | exchange distribution =>
      cases op' with
      | exchange distribution' =>
          change (distribution == distribution') = true ↔
            exchange distribution = exchange distribution'
          rw [exchange.injEq, beq_iff_eq]
      | _ => exact iff_of_false nofun nofun
  | writer target =>
      cases op' with
      | writer target' =>
          change (target == target') = true ↔ writer target = writer target'
          rw [writer.injEq, beq_iff_eq]
      | _ => exact iff_of_false nofun nofun
  | screen =>
      cases op' with
      | screen => exact iff_of_true rfl rfl
      | _ => exact iff_of_false nofun nofun

instance : ReflBEq Transform := ⟨(beq_iff _ _).2 rfl⟩

end Transform

namespace JoinSpec

/-- The description, every double in its conditions by its canonical bits. -/
def canonical (spec : JoinSpec) : JoinSpec :=
  { spec with
    condition := spec.condition.canonical
    extra := spec.extra.map Expr.canonical }

theorem beq_iff (spec spec' : JoinSpec) :
    (spec == spec') = true ↔ spec.canonical = spec'.canonical := by
  have hextra : (spec.extra == spec'.extra) = true ↔
      spec.extra.map Expr.canonical = spec'.extra.map Expr.canonical := by
    cases spec.extra <;> cases spec'.extra <;> simp [Expr.beq_iff]
  change (spec.joinType == spec'.joinType && (spec.condition == spec'.condition &&
    (spec.keys == spec'.keys && spec.extra == spec'.extra))) = true ↔ _
  rw [canonical, canonical, mk.injEq, Bool.and_eq_true, Bool.and_eq_true, Bool.and_eq_true,
    beq_iff_eq, Expr.beq_iff, beq_iff_eq, hextra]

instance : ReflBEq JoinSpec := ⟨(beq_iff _ _).2 rfl⟩

end JoinSpec

namespace Header

variable {h h' : Header}

/-- The header of a node that has no identity of its own. -/
def unnumbered (h : Header) : Header := { h with id := ⟨0⟩ }

theorem alike_iff : h.alike h' = true ↔ h.schema = h'.schema ∧ h.traits = h'.traits := by
  rw [alike, Bool.and_eq_true, beq_iff_eq, beq_iff_eq]

theorem alike_iff_unnumbered : h.alike h' = true ↔ h.unnumbered = h'.unnumbered := by
  rw [alike_iff, unnumbered, unnumbered, mk.injEq, and_iff_right rfl]

end Header

namespace Plan

/-- The plan without the identities of its nodes. -/
def unnumbered : Plan → Plan
  | .source h op => .source h.unnumbered op
  | .transform h op input => .transform h.unnumbered op input.unnumbered
  | .join h algorithm spec left right =>
    .join h.unnumbered algorithm spec left.unnumbered right.unnumbered

/-- The plan without the identities of its nodes, every double in it by its canonical bits. -/
def canonical : Plan → Plan
  | .source h op => .source h.unnumbered op
  | .transform h op input => .transform h.unnumbered op.canonical input.canonical
  | .join h algorithm spec left right =>
    .join h.unnumbered algorithm spec.canonical left.canonical right.canonical

theorem canonical_unnumbered (p : Plan) : p.unnumbered.canonical = p.canonical := by
  induction p with
  | source h op => rfl
  | transform h op input ih =>
      rw [unnumbered, canonical, canonical, ih]
      rfl
  | join h algorithm spec left right ihl ihr =>
      rw [unnumbered, canonical, canonical, ihl, ihr]
      rfl

theorem same_iff (p q : Plan) : p.same q = true ↔ p.canonical = q.canonical := by
  induction p generalizing q with
  | source h op =>
      cases q with
      | source h' op' =>
          rw [same, canonical, canonical, source.injEq, Bool.and_eq_true,
            Header.alike_iff_unnumbered, beq_iff_eq, and_comm]
      | _ => exact iff_of_false nofun nofun
  | transform h op input ih =>
      cases q with
      | transform h' op' input' =>
          rw [same, canonical, canonical, transform.injEq, Bool.and_eq_true, Bool.and_eq_true,
            Header.alike_iff_unnumbered, Transform.beq_iff, ih, and_comm (a := op.canonical = _),
            and_assoc]
      | _ => exact iff_of_false nofun nofun
  | join h algorithm spec left right ihl ihr =>
      cases q with
      | join h' algorithm' spec' left' right' =>
          rw [same, canonical, canonical, join.injEq, Bool.and_eq_true, Bool.and_eq_true,
            Bool.and_eq_true, Bool.and_eq_true, Header.alike_iff_unnumbered, JoinSpec.beq_iff,
            beq_iff_eq, ihl, ihr]
          exact ⟨fun ⟨⟨⟨ha, hs⟩, hh⟩, hl, hr⟩ => ⟨hh, ha, hs, hl, hr⟩,
            fun ⟨hh, ha, hs, hl, hr⟩ => ⟨⟨⟨ha, hs⟩, hh⟩, hl, hr⟩⟩
      | _ => exact iff_of_false nofun nofun

@[simp] theorem same_refl (p : Plan) : p.same p = true := (same_iff p p).2 rfl

section Topmost

variable {h h' : Header} {input input' : Plan}

/-- Nodes of one operator are the same if they carry the same and so do their inputs. -/
theorem same_transform {op : Transform} (hrow : h'.schema = h.schema)
    (htraits : h'.traits = h.traits) (hinput : input'.same input = true) :
    (transform h' op input').same (transform h op input) = true := by
  rw [same, Header.alike_iff.2 ⟨hrow, htraits⟩, hinput, BEq.rfl]
  rfl

/-- Joins of one kind are the same if they carry the same and so do their inputs. -/
theorem same_join {algorithm : JoinAlgorithm} {spec : JoinSpec} {left left' right right' : Plan}
    (hrow : h'.schema = h.schema) (htraits : h'.traits = h.traits)
    (hleft : left'.same left = true) (hright : right'.same right = true) :
    (join h' algorithm spec left' right').same (join h algorithm spec left right) = true := by
  rw [same, Header.alike_iff.2 ⟨hrow, htraits⟩, hleft, hright, BEq.rfl, BEq.rfl]
  rfl

end Topmost

end Plan

end QueryPlan
