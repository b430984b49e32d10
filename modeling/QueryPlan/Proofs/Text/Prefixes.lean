import Mathlib.Data.List.Infix
import QueryPlan.Proofs.Text.Decimal

/-!
# Prefixes and lower case

No character but the star becomes a star in lower case, so a text begins with stars just if its
lower-case form does. A number behind a text does not change what the text begins with, if this
does not end in a digit.
-/

namespace QueryPlan.Text

section Star

theorem isPlain_star : IsPlain '*' := by
  have h : '*' ≠ 'Σ' ∧ lowerChar '*' = ['*'] ∧ isCased '*' = false ∧
      isCaseIgnorable '*' = false := by
    decide +kernel
  exact ⟨h.1, h.2.1, h.2.2.1, h.2.2.2⟩

private theorem lt_of_mem_lowerRuns :
    ∀ run ∈ lowerRuns, (42 : Int) < (run.1 : Int) + run.2.2.2 := by
  decide +kernel

theorem eq_of_ofNat_eq_star {n : Nat} (h : Char.ofNat n = '*') : n = 42 := by
  by_cases hn : n.isValidChar
  · rw [Char.ofNat, dif_pos hn] at h
    exact congrArg Char.toNat h
  · rw [Char.ofNat, dif_neg hn] at h
    cases h

/-- No character but the star becomes a star. -/
theorem eq_star_of_head?_lowerChar {c : Char} (h : (lowerChar c).head? = some '*') :
    c = '*' := by
  rw [lowerChar] at h
  split at h
  · cases h
  · cases hrun : lowerRuns.findSome? fun run => run.lower? c.toNat with
    | none =>
        rw [hrun] at h
        exact Option.some.inj h
    | some n =>
        rw [hrun] at h
        have hn : n = 42 := eq_of_ofNat_eq_star (Option.some.inj h)
        obtain ⟨run, hmem, hlower⟩ := List.exists_of_findSome?_eq_some hrun
        have hlt := lt_of_mem_lowerRuns run hmem
        obtain ⟨first, last, step, offset⟩ := run
        simp only [CaseRun.lower?, Option.ite_none_right_eq_some, Bool.and_eq_true,
          decide_eq_true_eq, Option.some.injEq] at hlower hlt
        omega

theorem exists_of_lowerFrom_eq_star_cons {inWord : Bool} {s t : List Char}
    (h : lowerFrom inWord s = '*' :: t) : ∃ rest, s = '*' :: rest ∧ lowerFrom false rest = t := by
  cases s with
  | nil => cases h
  | cons c s =>
      have hne : c ≠ 'Σ' := by
        rintro rfl
        rw [lowerFrom] at h
        cases hword : inWord && !letterFollows s <;> rw [hword] at h <;> cases h
      have hhead : (lowerChar c).head? = some '*' := by
        rw [lowerFrom_cons_of_ne hne] at h
        cases hlower : lowerChar c with
        | nil =>
            rw [lowerChar] at hlower
            split at hlower
            · cases hlower
            · split at hlower <;> cases hlower
        | cons d ds =>
            rw [hlower] at h
            exact congrArg some (List.cons.inj h).1
      obtain rfl := eq_star_of_head?_lowerChar hhead
      rw [lowerFrom_cons_of_isPlain isPlain_star] at h
      exact ⟨s, rfl, (List.cons.inj h).2⟩

/-- A text begins with two stars just if its lower-case form does. -/
theorem stars_prefix_lowercase_iff {s : String} :
    "**".toList <+: (lowercase s).toList ↔ "**".toList <+: s.toList := by
  have hchars : (lowercase s).toList = lowerFrom false s.toList := String.toList_ofList
  rw [hchars]
  constructor
  · rintro ⟨t, ht⟩
    obtain ⟨rest, hs, hrest⟩ := exists_of_lowerFrom_eq_star_cons ht.symm
    obtain ⟨rest', rfl, -⟩ := exists_of_lowerFrom_eq_star_cons hrest
    exact ⟨rest', hs.symm⟩
  · rintro ⟨rest, hrest⟩
    have hlower : lowerFrom false s.toList = '*' :: '*' :: lowerFrom false rest := by
      rw [← hrest]
      exact (lowerFrom_cons_of_isPlain isPlain_star false ('*' :: rest)).trans
        (congrArg ('*' :: ·) (lowerFrom_cons_of_isPlain isPlain_star false rest))
    rw [hlower]
    exact ⟨lowerFrom false rest, rfl⟩

end Star

/-- A number at the end of a text does not change what it begins with. -/
theorem prefix_append_toString_iff {pre s : List Char} {c : Char}
    (hlast : pre.getLast? = some c) (hc : c.isDigit = false) {k : Nat} :
    pre <+: s ++ (toString k).toList ↔ pre <+: s := by
  constructor
  · intro h
    rcases List.prefix_or_prefix_of_prefix h (List.prefix_append _ _) with hin | ⟨rest, hrest⟩
    · exact hin
    · rw [← hrest, List.prefix_append_right_inj] at h
      -- What is left of the prefix is within the digits, and it would end in another character.
      cases hend : rest.getLast? with
      | none =>
          rw [List.getLast?_eq_none_iff.1 hend, List.append_nil] at hrest
          exact ⟨[], by rw [← hrest, List.append_nil]⟩
      | some d =>
          have hdc : d = c := by
            rw [← hrest, List.getLast?_append, hend] at hlast
            exact Option.some.inj hlast
          have hdigit := isDigit_of_mem_toString (h.mem (List.mem_of_getLast? hend))
          rw [hdc, hc] at hdigit
          cases hdigit
  · exact fun h => h.trans (List.prefix_append _ _)

end QueryPlan.Text
