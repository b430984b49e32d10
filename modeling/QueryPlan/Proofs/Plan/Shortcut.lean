import Mathlib.Data.Set.Function
import QueryPlan.Proofs.Plan.Construction
import QueryPlan.Proofs.Plan.Equality

/-!
# The shortcut in the comparison of plans

Where two inputs have one identity they are taken to be the same without a look inside. If a node
is told by its identity, they are one node, and since everything is the same as itself the look
would have found nothing else. So the shortcut saves work and never changes the answer, and the
comparison is the equivalence that it is without the shortcut. How the nodes have been numbered,
and which subplans are shared, does not show in it.
-/

namespace QueryPlan

namespace Plan

variable {p q i j : Plan}

/-- Nodes of the two plans that have one identity are one node. -/
def ToldById (p q : Plan) : Prop := ∀ n ∈ p.preorder, ∀ m ∈ q.preorder, n.id = m.id → n = m

theorem ToldById.eq_of_id_eq (h : ToldById p q) (hid : p.id = q.id) : p = q :=
  h p (mem_preorder_self p) q (mem_preorder_self q) hid

theorem ToldById.inputs (h : ToldById p q) (hi : i ∈ p.inputs) (hj : j ∈ q.inputs) :
    ToldById i j := fun n hn m hm =>
  h n (preorder_subset (mem_preorder_of_mem_inputs hi) hn) m
    (preorder_subset (mem_preorder_of_mem_inputs hj) hm)

/-- Plans of one register are told by their identities. -/
theorem toldById_of_mem {R : Register} (hp : p ∈ R.nodes) (hq : q ∈ R.nodes) : ToldById p q :=
  fun n hn m hm => R.eq_of_id_eq n (R.preorder_subset hp hn) m (R.preorder_subset hq hm)

/-- The shortcut at an input. -/
theorem or_equal_eq_same (h : ToldById i j) (hequal : i.equal j = i.same j) :
    (i.id == j.id || i.equal j) = i.same j := by
  rw [hequal]
  cases hsame : i.id == j.id with
  | false => rfl
  | true =>
      rw [h.eq_of_id_eq (eq_of_beq hsame), same_refl]
      rfl

theorem equal_eq_same (h : ToldById p q) : p.equal q = p.same q := by
  induction p generalizing q with
  | source h₁ op => cases q <;> rfl
  | transform h₁ op input ih =>
      cases q with
      | transform h₂ op' input' =>
          have hinput : ToldById input input' := h.inputs (by simp [inputs]) (by simp [inputs])
          rw [equal, same, or_equal_eq_same hinput (ih hinput)]
      | _ => rfl
  | join h₁ algorithm spec left right ihl ihr =>
      cases q with
      | join h₂ algorithm' spec' left' right' =>
          have hleft : ToldById left left' := h.inputs (by simp [inputs]) (by simp [inputs])
          have hright : ToldById right right' := h.inputs (by simp [inputs]) (by simp [inputs])
          rw [equal, same, or_equal_eq_same hleft (ihl hleft), or_equal_eq_same hright (ihr hright)]
      | _ => rfl

theorem same_equivalence : Equivalence fun p q : Plan => p.same q = true where
  refl := same_refl
  symm h := (same_iff _ _).2 ((same_iff _ _).1 h).symm
  trans h h' := (same_iff _ _).2 (((same_iff _ _).1 h).trans ((same_iff _ _).1 h'))

theorem same_eq_of_unnumbered_eq {p p' q q' : Plan} (hp : p.unnumbered = p'.unnumbered)
    (hq : q.unnumbered = q'.unnumbered) : p.same q = p'.same q' := by
  rw [Bool.eq_iff_iff, same_iff, same_iff, ← canonical_unnumbered p, ← canonical_unnumbered q, hp,
    hq, canonical_unnumbered, canonical_unnumbered]

/-- Among plans in which a node is told by its identity, the comparison that takes inputs of one
identity to be the same unseen gives the answer of the comparison that looks at every node. It is
an equivalence, as the other one is among all plans. Neither depends on the identities: plans that
differ in nothing else get the same answer, also where other nodes are shared. -/
theorem equal_eq_same_of_injOn {plans : Set Plan}
    (hids : Set.InjOn Plan.id {n | ∃ p ∈ plans, n ∈ p.preorder}) :
    (∀ p ∈ plans, ∀ q ∈ plans, p.equal q = p.same q) ∧
      Equivalence (fun p q : plans => p.1.equal q.1 = true) ∧
      Equivalence (fun p q : Plan => p.same q = true) ∧
      (∀ p p' q q' : Plan, p.unnumbered = p'.unnumbered → q.unnumbered = q'.unnumbered →
        p.same q = p'.same q') ∧
      ∀ plans' : Set Plan, Set.InjOn Plan.id {n | ∃ p ∈ plans', n ∈ p.preorder} →
        ∀ p ∈ plans, ∀ q ∈ plans, ∀ p' ∈ plans', ∀ q' ∈ plans',
          p.unnumbered = p'.unnumbered → q.unnumbered = q'.unnumbered →
            p.equal q = p'.equal q' := by
  have hagree : ∀ {plans : Set Plan}, Set.InjOn Plan.id {n | ∃ p ∈ plans, n ∈ p.preorder} →
      ∀ p ∈ plans, ∀ q ∈ plans, p.equal q = p.same q := fun hids p hp q hq =>
    equal_eq_same fun n hn m hm => hids ⟨p, hp, hn⟩ ⟨q, hq, hm⟩
  refine ⟨hagree hids, ?_, same_equivalence, fun p p' q q' => same_eq_of_unnumbered_eq, ?_⟩
  · have heq : (fun p q : plans => p.1.equal q.1 = true) = fun p q => p.1.same q.1 = true := by
      funext p q
      rw [hagree hids p p.2 q q.2]
    rw [heq]
    exact same_equivalence.comap Subtype.val
  · intro plans' hids' p hp q hq p' hp' q' hq' hsame hsame'
    rw [hagree hids p hp q hq, hagree hids' p' hp' q' hq', same_eq_of_unnumbered_eq hsame hsame']

end Plan

/-! One scan below two filters that compare its column with values that are not a number, and
that differ in their bits. -/

namespace NotANumber

def row : Schema := ⟨[⟨"price", .float64⟩]⟩

def scan : Plan := .source ⟨⟨0⟩, row, .unknown⟩ (.scan ⟨"db", "sales"⟩)

def isNotANumber (bits : UInt64) : Expr :=
  .binary .isNotDistinctFrom (.row ⟨0, .float64⟩) (.literal (.float64 ⟨bits⟩))

def quiet : Plan :=
  .transform ⟨⟨1⟩, row, .unknown⟩ (.filter (isNotANumber 0x7FF8000000000000)) scan

def negative : Plan :=
  .transform ⟨⟨2⟩, row, .unknown⟩ (.filter (isNotANumber 0xFFF0000000000001)) scan

theorem built : Built [negative, quiet, scan] ⟨3⟩ := by
  have hfilter : ∀ (k : Nat) (bits : UInt64), (Plan.filter scan (isNotANumber bits)).run ⟨k⟩ =
      .ok (.transform ⟨⟨k⟩, row, .unknown⟩ (.filter (isNotANumber bits)) scan, ⟨k + 1⟩) := by
    intro k bits
    refine Plan.run_filter_eq_ok_iff.2 ⟨?_, rfl, rfl⟩
    simp [isNotANumber, Expr.ordinals, Plan.width, Plan.schema, Plan.header, scan, row,
      Schema.width]
  have hscan : Built [scan] ⟨1⟩ := (Built.start ⟨0⟩).scan ⟨"db", "sales"⟩ row
  have hquiet : Built [quiet, scan] ⟨2⟩ :=
    hscan.over (.filter scan (isNotANumber 0x7FF8000000000000)) rfl (hfilter 1 _)
  exact .make (.filter scan (isNotANumber 0xFFF0000000000001)) hquiet
    (by simp [Construction.inputs]) (hfilter 2 _)

theorem equal_eq_same_of_injOn_filters :
    Set.InjOn Plan.id {n | ∃ p ∈ {p | p = quiet ∨ p = negative}, n ∈ p.preorder} ∧
      quiet.equal negative = quiet.same negative ∧ quiet.equal negative = true := by
  obtain ⟨R, hnodes, -⟩ := built.exists_register
  have hmem : ∀ p, p = quiet ∨ p = negative → p ∈ R.nodes := by
    rw [hnodes]
    rintro p (rfl | rfl)
    · simp
    · simp
  have hids : Set.InjOn Plan.id {n | ∃ p ∈ {p | p = quiet ∨ p = negative}, n ∈ p.preorder} := by
    rintro n ⟨p, hp, hn⟩ m ⟨q, hq, hm⟩ hid
    exact Plan.toldById_of_mem (hmem p hp) (hmem q hq) n hn m hm hid
  obtain ⟨hagree, -⟩ := Plan.equal_eq_same_of_injOn hids
  exact ⟨hids, hagree quiet (.inl rfl) negative (.inr rfl), by decide +kernel⟩

end NotANumber

end QueryPlan
