import QueryPlan.Proofs.Names.Agreement
import QueryPlan.Proofs.StarColumns.TableIds

/-!
# The keys of star columns

Star columns are known by the keys by which names are compared: such a key begins with two
stars, or with the prefix of a table and two stars behind it. A leaf that gets a prefix
changes such names and no others, and a number behind a name does not change whether it is
one. So as far as the names of other columns go, the row of a leaf is the same with and
without a prefix.
-/

namespace QueryPlan

namespace StarColumn

/-- The key is that of a star column, with or without a prefix. -/
def IsStarKey (key : String) : Prop :=
  "**".toList <+: key.toList ∨ ∃ k, (Names.fold (withPrefix k "**")).toList <+: key.toList

/-- The name is not that of a star column, and it is not like one under a prefix. -/
def IsOrdinary (name : String) : Prop :=
  isBare name = false ∧
    ∀ k, ¬ (Names.fold (withPrefix k "**")).toList <+: (Names.fold name).toList

variable {k : Nat} {name : String}

theorem isBare_iff : isBare name = true ↔ "**".toList <+: name.toList :=
  List.isPrefixOf_iff_prefix

/-- Under a prefix the second star is lower-cased apart from what stands behind it. -/
theorem toList_fold_withPrefix {rest : List Char} (hname : name.toList = '*' :: '*' :: rest) :
    (Names.fold (withPrefix k name)).toList =
      Text.lowerFrom false ('T' :: ((toString k).toList ++ ['$', '*'])) ++
        '*' :: Text.lowerFrom false rest := by
  have hchars : (withPrefix k name).toList =
      'T' :: ((toString k).toList ++ ['$', '*']) ++ '*' :: rest := by
    rw [toList_withPrefix, hname, List.cons_append, List.append_assoc]
    rfl
  rw [Names.fold, Text.lowercase, String.toList_ofList, hchars,
    Text.lowerFrom_append_cons Text.isPlain_star]

theorem toList_fold_withPrefix_stars (k : Nat) :
    (Names.fold (withPrefix k "**")).toList =
      Text.lowerFrom false ('T' :: ((toString k).toList ++ ['$', '*'])) ++ ['*'] :=
  @toList_fold_withPrefix k "**" [] rfl

theorem isStarKey_fold_of_isBare (h : isBare name = true) : IsStarKey (Names.fold name) :=
  Or.inl (Text.stars_prefix_lowercase_iff.2 (isBare_iff.1 h))

theorem isStarKey_fold_withPrefix (h : isBare name = true) :
    IsStarKey (Names.fold (withPrefix k name)) := by
  obtain ⟨rest, hrest⟩ := isBare_iff.1 h
  refine Or.inr ⟨k, Text.lowerFrom false rest, ?_⟩
  rw [toList_fold_withPrefix hrest.symm, toList_fold_withPrefix_stars, List.append_assoc]
  rfl

theorem IsOrdinary.not_isStarKey (h : IsOrdinary name) : ¬ IsStarKey (Names.fold name) := by
  rintro (hstars | ⟨k, hk⟩)
  · have hbare := isBare_iff.2 (Text.stars_prefix_lowercase_iff.1 hstars)
    rw [h.1] at hbare
    cases hbare
  · exact h.2 k hk

theorem isOrdinary_of_head? (hbare : isBare name = false)
    (hhead : (Names.fold name).toList.head? ≠ some 't') : IsOrdinary name := by
  refine ⟨hbare, fun k hk => hhead ?_⟩
  obtain ⟨rest, hrest⟩ := exists_toList_fold_withPrefix k "**"
  obtain ⟨rest', hname⟩ := hk
  rw [← hname, hrest]
  rfl

theorem ignoresNumbers_isStarKey : Names.IgnoresNumbers IsStarKey := by
  intro key l
  rw [IsStarKey, IsStarKey, String.toList_append]
  have hstars : "**".toList.getLast? = some '*' := rfl
  have hmarked : ∀ k, (Names.fold (withPrefix k "**")).toList.getLast? = some '*' := by
    intro k
    rw [toList_fold_withPrefix_stars, List.getLast?_append]
    rfl
  rw [Text.prefix_append_toString_iff hstars (by decide)]
  exact or_congr Iff.rfl (exists_congr fun k =>
    Text.prefix_append_toString_iff (hmarked k) (by decide))

/-- The names of a leaf agree with those under its prefix. -/
theorem forall₂_agree_withPrefixes (k : Nat) (names : List String) :
    List.Forall₂ (Names.Agree IsStarKey) names (withPrefixes k names) := by
  rw [withPrefixes, List.forall₂_map_right_iff, List.forall₂_same]
  intro name _
  by_cases hbare : isBare name = true
  · rw [if_pos hbare]
    exact Or.inl ⟨isStarKey_fold_of_isBare hbare, isStarKey_fold_withPrefix hbare⟩
  · rw [if_neg hbare]
    exact .refl name

end StarColumn

end QueryPlan
