import QueryPlan.Proofs.Names

/-!
# Names told apart beside names of another sort

Let some of the keys by which names are compared be marked, so that a number behind a key
neither marks nor unmarks it. Two lists of names agree if at every place both names are
marked, or neither is and they are the same name. The marked names of the two lists may be
quite different.

Telling names apart keeps this. A marked name is never like an unmarked one, so whether an
unmarked name was chosen before, and which of its numbers are free, depends on the unmarked
names alone. How many numbers are tried depends on the number of names, and that is the same
in both lists.
-/

namespace QueryPlan.Names

/-- Both names are marked, or neither is and they are the same name. -/
def Agree (Marked : String → Prop) (a b : String) : Prop :=
  (Marked (fold a) ∧ Marked (fold b)) ∨ (¬ Marked (fold a) ∧ a = b)

/-- The two lists have the same unmarked keys, and they are of the same length. -/
def SameUnmarked (Marked : String → Prop) (keys keys' : List String) : Prop :=
  keys.length = keys'.length ∧ ∀ key, ¬ Marked key → (key ∈ keys ↔ key ∈ keys')

variable {Marked : String → Prop} {a b : String}
  {keys keys' given given' chosen chosen' : List String}

theorem Agree.refl (a : String) : Agree Marked a a := by
  by_cases ha : Marked (fold a)
  · exact Or.inl ⟨ha, ha⟩
  · exact Or.inr ⟨ha, rfl⟩

theorem sameUnmarked_nil : SameUnmarked Marked [] [] := ⟨rfl, fun _ _ => Iff.rfl⟩

theorem SameUnmarked.append (hgiven : SameUnmarked Marked given given')
    (hchosen : SameUnmarked Marked chosen chosen') :
    SameUnmarked Marked (given ++ chosen) (given' ++ chosen') := by
  refine ⟨by rw [List.length_append, List.length_append, hgiven.1, hchosen.1], fun key hkey => ?_⟩
  rw [List.mem_append, List.mem_append, hgiven.2 key hkey, hchosen.2 key hkey]

theorem SameUnmarked.cons (hkeys : SameUnmarked Marked keys keys') (hab : Agree Marked a b) :
    SameUnmarked Marked (fold a :: keys) (fold b :: keys') := by
  refine ⟨by rw [List.length_cons, List.length_cons, hkeys.1], fun key hkey => ?_⟩
  rw [List.mem_cons, List.mem_cons, hkeys.2 key hkey]
  rcases hab with ⟨ha, hb⟩ | ⟨-, rfl⟩
  · have hne : ∀ name, Marked (fold name) → key ≠ fold name := fun name hname heq =>
      hkey (heq ▸ hname)
    simp only [hne a ha, hne b hb]
  · rfl

theorem sameUnmarked_map_fold {names names' : List String}
    (h : List.Forall₂ (Agree Marked) names names') :
    SameUnmarked Marked (names.map fold) (names'.map fold) := by
  induction h with
  | nil => exact sameUnmarked_nil
  | cons hab _ ih => exact ih.cons hab

/-- A number behind a key neither marks nor unmarks it. -/
def IgnoresNumbers (Marked : String → Prop) : Prop :=
  ∀ (key : String) (k : Nat), Marked (key ++ toString k) ↔ Marked key

section IgnoresNumbers

variable (hnumber : IgnoresNumbers Marked)
include hnumber

theorem IgnoresNumbers.fold_numbered_iff {name : String} {k : Nat} :
    Marked (fold (numbered name k)) ↔ Marked (fold name) := by
  rw [fold_numbered]
  exact hnumber (fold name) k

theorem SameUnmarked.freeNumber?_eq (hkeys : SameUnmarked Marked keys keys') {name : String}
    (hname : ¬ Marked (fold name)) : freeNumber? keys name = freeNumber? keys' name := by
  have htaken : ∀ k, keys.contains (fold (numbered name k)) =
      keys'.contains (fold (numbered name k)) := by
    intro k
    have hunmarked : ¬ Marked (fold (numbered name k)) :=
      mt hnumber.fold_numbered_iff.1 hname
    rw [Bool.eq_iff_iff, List.contains_iff_mem, List.contains_iff_mem, hkeys.2 _ hunmarked]
  rw [freeNumber?, freeNumber?, hkeys.1]
  exact congrArg (List.find? · _) (funext fun k => by rw [htaken k])

theorem Agree.choose (hab : Agree Marked a b) (hgiven : SameUnmarked Marked given given')
    (hchosen : SameUnmarked Marked chosen chosen') :
    Agree Marked (choose given chosen a) (choose given' chosen' b) := by
  have hkeeps : ∀ (given chosen : List String) (name : String), Marked (fold name) →
      Marked (fold (Names.choose given chosen name)) := by
    intro given chosen name hname
    rcases choose_eq_or_numbered given chosen name with heq | ⟨k, heq⟩
    · rwa [heq]
    · rwa [heq, hnumber.fold_numbered_iff]
  rcases hab with ⟨ha, hb⟩ | ⟨ha, rfl⟩
  · exact Or.inl ⟨hkeeps given chosen a ha, hkeeps given' chosen' b hb⟩
  · have hsame : Names.choose given chosen a = Names.choose given' chosen' a := by
      have htaken : chosen.contains (fold a) = chosen'.contains (fold a) := by
        rw [Bool.eq_iff_iff, List.contains_iff_mem, List.contains_iff_mem, hchosen.2 _ ha]
      rw [Names.choose, Names.choose, htaken, (hgiven.append hchosen).freeNumber?_eq hnumber ha]
    rw [hsame]
    exact Agree.refl _

theorem forall₂_agree_disambiguateFrom {names names' : List String}
    (hnames : List.Forall₂ (Agree Marked) names names')
    (hgiven : SameUnmarked Marked given given') (hchosen : SameUnmarked Marked chosen chosen') :
    List.Forall₂ (Agree Marked) (disambiguateFrom given chosen names)
      (disambiguateFrom given' chosen' names') := by
  induction hnames generalizing chosen chosen' with
  | nil => exact .nil
  | cons hab _ ih =>
      have hpicked := hab.choose hnumber hgiven hchosen
      exact .cons hpicked (ih (hchosen.cons hpicked))

/-- Lists of names that agree still agree when their names are told apart. -/
theorem forall₂_agree_disambiguate {names names' : List String}
    (hnames : List.Forall₂ (Agree Marked) names names') :
    List.Forall₂ (Agree Marked) (disambiguate names) (disambiguate names') :=
  forall₂_agree_disambiguateFrom hnumber hnames (sameUnmarked_map_fold hnames) sameUnmarked_nil

end IgnoresNumbers

end QueryPlan.Names
