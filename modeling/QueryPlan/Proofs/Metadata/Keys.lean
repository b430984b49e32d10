import Mathlib.Data.List.Perm.Lattice
import QueryPlan.Metadata.Session
import QueryPlan.Proofs.Expr.Canonical

/-!
# When two keys are the same

Keys are compared down to the expressions in the arguments, and expressions are the same if their
canonical forms are equal. So a key may be put into a canonical form, too, and keys are the same
just if their canonical forms are equal. In particular sameness of keys is an equivalence, and the
keys in a list that are told apart are counted by their canonical forms.
-/

namespace QueryPlan

namespace Metadata

/-- The argument, every double in it by its canonical bits. -/
def Argument.canonical : Argument → Argument
  | .predicate e => .predicate (e.map Expr.canonical)
  | a => a

theorem Argument.beq_iff (a b : Argument) : (a == b) = true ↔ a.canonical = b.canonical := by
  cases a with
  | columns ordinals =>
      cases b with
      | columns ordinals' =>
          change (ordinals == ordinals') = true ↔ _
          simp [canonical]
      | _ => exact iff_of_false nofun nofun
  | predicate e =>
      cases b with
      | predicate e' =>
          change (e == e') = true ↔ _
          cases e <;> cases e' <;> simp [canonical, Expr.beq_eq_same, Expr.same_iff]
      | _ => exact iff_of_false nofun nofun
  | flag value =>
      cases b with
      | flag value' =>
          change (value == value') = true ↔ _
          simp [canonical]
      | _ => exact iff_of_false nofun nofun

theorem beq_arguments_iff (as bs : List Argument) :
    (as == bs) = true ↔ as.map Argument.canonical = bs.map Argument.canonical := by
  induction as generalizing bs with
  | nil => cases bs <;> simp
  | cons a as ih => cases bs <;> simp [ih, Argument.beq_iff]

namespace MemoKey

/-- The key, every double in its arguments by its canonical bits. -/
def canonical (k : MemoKey) : MemoKey := { k with args := k.args.map Argument.canonical }

theorem beq_iff (k k' : MemoKey) : (k == k') = true ↔ k.canonical = k'.canonical := by
  change (k.node == k'.node && (k.property == k'.property && k.args == k'.args)) = true ↔ _
  simp [canonical, beq_arguments_iff]

instance : EquivBEq MemoKey where
  rfl := (beq_iff _ _).2 rfl
  symm h := (beq_iff _ _).2 ((beq_iff _ _).1 h).symm
  trans h h' := (beq_iff _ _).2 (((beq_iff _ _).1 h).trans ((beq_iff _ _).1 h'))

theorem canonical_ne_of_mem_filter {key k : MemoKey} {rest : List MemoKey}
    (hk : k ∈ rest.filter fun k => !(k == key)) : k.canonical ≠ key.canonical := by
  intro heq
  have hne := (List.mem_filter.1 hk).2
  rw [(beq_iff k key).2 heq] at hne
  cases hne

/-- Striking out repeated keys leaves every canonical form. -/
theorem mem_map_eraseDups (keys : List MemoKey) (c : MemoKey) :
    c ∈ keys.eraseDups.map canonical ↔ c ∈ keys.map canonical := by
  match keys with
  | [] => rfl
  | key :: rest =>
      have hstruck : c ∈ (rest.filter fun k => !(k == key)).map canonical ↔
          c ∈ rest.map canonical ∧ c ≠ key.canonical := by
        constructor
        · intro hc
          obtain ⟨k, hk, rfl⟩ := List.mem_map.1 hc
          exact ⟨List.mem_map_of_mem (List.mem_filter.1 hk).1, canonical_ne_of_mem_filter hk⟩
        · rintro ⟨hc, hne⟩
          obtain ⟨k, hk, rfl⟩ := List.mem_map.1 hc
          refine List.mem_map_of_mem (List.mem_filter.2 ⟨hk, ?_⟩)
          rwa [Bool.not_eq_true', Bool.eq_false_iff, ne_eq, beq_iff]
      rw [List.eraseDups_cons, List.map_cons, List.mem_cons, mem_map_eraseDups, hstruck,
        List.map_cons, List.mem_cons]
      by_cases hc : c = key.canonical <;> simp [hc]
termination_by keys.length
decreasing_by exact Nat.lt_succ_of_le (List.length_filter_le _ _)

/-- Striking out repeated keys leaves no canonical form twice. -/
theorem nodup_map_eraseDups (keys : List MemoKey) : (keys.eraseDups.map canonical).Nodup := by
  match keys with
  | [] => exact .nil
  | key :: rest =>
      rw [List.eraseDups_cons, List.map_cons, List.nodup_cons, mem_map_eraseDups]
      refine ⟨fun hmem => ?_, nodup_map_eraseDups _⟩
      obtain ⟨k, hk, heq⟩ := List.mem_map.1 hmem
      exact canonical_ne_of_mem_filter hk heq
termination_by keys.length
decreasing_by exact Nat.lt_succ_of_le (List.length_filter_le _ _)

/-- A list has as many different keys as there are in a list of different keys in which each of
them is found, and which has no others. -/
theorem length_eraseDups_eq {keys keys' : List MemoKey}
    (hdistinct : keys'.Pairwise fun k k' => (k == k') = false)
    (hmem : ∀ k ∈ keys, ∃ k' ∈ keys', (k' == k) = true) (hsub : keys' ⊆ keys) :
    keys.eraseDups.length = keys'.length := by
  have hnodup : (keys'.map canonical).Nodup := by
    refine List.pairwise_map.2 (hdistinct.imp fun hne heq => ?_)
    rw [(beq_iff _ _).2 heq] at hne
    cases hne
  have hall : ∀ c, c ∈ keys.eraseDups.map canonical ↔ c ∈ keys'.map canonical := by
    intro c
    rw [mem_map_eraseDups]
    constructor
    · intro hc
      obtain ⟨k, hk, rfl⟩ := List.mem_map.1 hc
      obtain ⟨k', hk', hsame⟩ := hmem k hk
      exact (beq_iff k' k).1 hsame ▸ List.mem_map_of_mem hk'
    · exact fun hc => List.map_subset canonical hsub hc
  have hperm := (List.perm_ext_iff_of_nodup (nodup_map_eraseDups keys) hnodup).2 hall
  simpa using hperm.length_eq

end MemoKey

end Metadata

end QueryPlan
