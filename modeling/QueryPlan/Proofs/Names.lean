import Mathlib.Data.List.Nodup
import QueryPlan.Names
import QueryPlan.Proofs.Text.Decimal

/-!
# Names told apart

The numbers that may be appended to a name give names of which no two are alike, so among
one more of them than there are names in the way one is free. The chosen name is therefore
unlike every name chosen before, and after the last field no two names are alike. Names
that were told apart from the start stay as they are.
-/

namespace QueryPlan.Names

theorem fold_numbered (name : String) (k : Nat) :
    fold (numbered name k) = fold name ++ toString k :=
  Text.lowercase_append_toString name k

theorem fold_numbered_injective (name : String) :
    Function.Injective fun k => fold (numbered name k) := by
  intro k l hkl
  have hchars : (fold name ++ toString k).toList = (fold name ++ toString l).toList := by
    rw [← fold_numbered, ← fold_numbered]
    exact congrArg String.toList hkl
  rw [String.toList_append, String.toList_append] at hchars
  exact Text.toString_injective (List.append_cancel_left hchars)

/-- A number makes another name, in lower case, too. -/
theorem fold_numbered_ne (name : String) (k : Nat) : fold (numbered name k) ≠ fold name := by
  intro heq
  have hlength := congrArg String.length heq
  rw [fold_numbered, String.length_append] at hlength
  have hdigits : 0 < (toString k).length := by
    rw [Nat.toString_eq_repr]
    exact Nat.length_repr_pos
  omega

/-- One more numbers are tried than there are names in the way. -/
theorem exists_freeNumber? (inTheWay : List String) (name : String) :
    ∃ k, freeNumber? inTheWay name = some k := by
  refine Option.isSome_iff_exists.1 (List.find?_isSome.2 ?_)
  by_contra hnone
  have hsubset : (List.range (inTheWay.length + 1)).map (fun k => fold (numbered name k)) ⊆
      inTheWay := by
    intro key hkey
    obtain ⟨k, hk, rfl⟩ := List.mem_map.1 hkey
    by_contra hfree
    exact hnone ⟨k, hk, by simpa using hfree⟩
  have hnodup := List.nodup_range.map (fold_numbered_injective name)
    (l := List.range (inTheWay.length + 1))
  have hlength := hnodup.length_le_of_subset hsubset
  rw [List.length_map, List.length_range] at hlength
  exact Nat.not_succ_le_self _ hlength

theorem fold_numbered_notMem_of_freeNumber? {inTheWay : List String} {name : String} {k : Nat}
    (h : freeNumber? inTheWay name = some k) : fold (numbered name k) ∉ inTheWay := by
  simpa using List.find?_some h

theorem choose_of_notMem {given chosen : List String} {name : String}
    (h : fold name ∉ chosen) : choose given chosen name = name := by
  simp [choose, h]

theorem choose_of_mem {given chosen : List String} {name : String} (h : fold name ∈ chosen) :
    ∃ k, freeNumber? (given ++ chosen) name = some k ∧
      choose given chosen name = numbered name k := by
  obtain ⟨k, hk⟩ := exists_freeNumber? (given ++ chosen) name
  exact ⟨k, hk, by simp [choose, h, hk]⟩

/-- The chosen name is unlike those chosen before. -/
theorem fold_choose_notMem (given chosen : List String) (name : String) :
    fold (choose given chosen name) ∉ chosen := by
  by_cases h : fold name ∈ chosen
  · obtain ⟨k, hk, hchoose⟩ : ∃ k, freeNumber? (given ++ chosen) name = some k ∧
        choose given chosen name = numbered name k := choose_of_mem h
    rw [hchoose]
    exact fun hmem => fold_numbered_notMem_of_freeNumber? hk (List.mem_append_right given hmem)
  · rwa [choose_of_notMem h]

/-- The chosen name is the given one, with or without a number behind it. -/
theorem choose_eq_or_numbered (given chosen : List String) (name : String) :
    choose given chosen name = name ∨ ∃ k, choose given chosen name = numbered name k := by
  by_cases h : fold name ∈ chosen
  · obtain ⟨k, -, hchoose⟩ : ∃ k, freeNumber? (given ++ chosen) name = some k ∧
        choose given chosen name = numbered name k := choose_of_mem h
    exact Or.inr ⟨k, hchoose⟩
  · exact Or.inl (choose_of_notMem h)

theorem nodup_disambiguateFrom (given chosen names : List String) :
    ((disambiguateFrom given chosen names).map fold).Nodup ∧
      ∀ name ∈ disambiguateFrom given chosen names, fold name ∉ chosen := by
  induction names generalizing chosen with
  | nil => simp [disambiguateFrom]
  | cons name rest ih =>
      obtain ⟨hnodup, hfree⟩ := ih (fold (choose given chosen name) :: chosen)
      simp only [disambiguateFrom, List.map_cons, List.nodup_cons, List.mem_map,
        List.forall_mem_cons]
      refine ⟨⟨?_, hnodup⟩, fold_choose_notMem given chosen name, ?_⟩
      · rintro ⟨later, hlater, heq⟩
        exact hfree later hlater (by simp [heq])
      · intro later hlater hmem
        exact hfree later hlater (List.mem_cons_of_mem _ hmem)

/-- No two of the resulting names are alike. -/
theorem distinct_disambiguate (names : List String) : distinct (disambiguate names) = true :=
  (distinct_iff _).2 (nodup_disambiguateFrom _ _ _).1

theorem distinct_of_length_le_one {names : List String} (h : names.length ≤ 1) :
    distinct names = true := by
  rw [distinct_iff]
  match names, h with
  | [], _ => exact List.nodup_nil
  | [_], _ => exact List.nodup_singleton _

theorem disambiguateFrom_of_nodup {given chosen names : List String}
    (hnodup : (names.map fold).Nodup) (hfree : ∀ name ∈ names, fold name ∉ chosen) :
    disambiguateFrom given chosen names = names := by
  induction names generalizing chosen with
  | nil => rfl
  | cons name rest ih =>
      rw [List.map_cons, List.nodup_cons] at hnodup
      have hname : choose given chosen name = name :=
        choose_of_notMem (hfree name List.mem_cons_self)
      have hrest : disambiguateFrom given (fold name :: chosen) rest = rest := by
        apply ih hnodup.2
        intro later hlater hmem
        rcases List.mem_cons.1 hmem with heq | hmem
        · exact hnodup.1 (heq ▸ List.mem_map_of_mem hlater)
        · exact hfree later (List.mem_cons_of_mem _ hlater) hmem
      simp only [disambiguateFrom, hname, hrest]

/-- Names of which no two are alike stay as they are. -/
theorem disambiguate_of_distinct {names : List String} (h : distinct names = true) :
    disambiguate names = names :=
  disambiguateFrom_of_nodup ((distinct_iff _).1 h) (by simp)

theorem forall₂_disambiguateFrom (given chosen names : List String) :
    List.Forall₂ (fun name picked => picked = name ∨ ∃ k, picked = numbered name k) names
      (disambiguateFrom given chosen names) := by
  induction names generalizing chosen with
  | nil => exact List.Forall₂.nil
  | cons name rest ih =>
      exact List.Forall₂.cons (choose_eq_or_numbered given chosen name)
        (ih (fold (choose given chosen name) :: chosen))

/-- Every resulting name is the given name at its place, with or without a number behind it. -/
theorem forall₂_disambiguate (names : List String) :
    List.Forall₂ (fun name picked => picked = name ∨ ∃ k, picked = numbered name k) names
      (disambiguate names) :=
  forall₂_disambiguateFrom _ _ _

/-- Lists that are related place by place are related at every place. -/
theorem rel_getElem? {α β : Type} {R : α → β → Prop} {as : List α} {bs : List β}
    (h : List.Forall₂ R as bs) (i : Nat) : Option.Rel R as[i]? bs[i]? := by
  induction h generalizing i with
  | nil => exact .none
  | cons hab _ ih =>
      cases i with
      | zero => exact .some hab
      | succ i => exact ih i

theorem exists_getElem?_of_forall₂ {α β : Type} {R : α → β → Prop} {as : List α} {bs : List β}
    (h : List.Forall₂ R as bs) {i : Nat} {b : β} (hb : bs[i]? = some b) :
    ∃ a, as[i]? = some a ∧ R a b := by
  have hrel := rel_getElem? h i
  rw [hb] at hrel
  generalize as[i]? = a at hrel ⊢
  cases hrel with
  | some hab => exact ⟨_, rfl, hab⟩

/-- What a number behind a name does not change is not changed by telling names apart. -/
theorem exists_getElem?_disambiguate_iff {P : String → Prop}
    (hP : ∀ name k, P (numbered name k) ↔ P name) {names : List String} {i : Nat} :
    (∃ picked, (disambiguate names)[i]? = some picked ∧ P picked) ↔
      ∃ name, names[i]? = some name ∧ P name := by
  have hat : ∀ {picked : String}, (disambiguate names)[i]? = some picked →
      ∃ name, names[i]? = some name ∧ (P picked ↔ P name) := by
    intro picked hpicked
    obtain ⟨name, hname, hkept | ⟨k, hnumbered⟩⟩ :=
      exists_getElem?_of_forall₂ (forall₂_disambiguate names) hpicked
    · exact ⟨name, hname, by rw [hkept]⟩
    · exact ⟨name, hname, hnumbered ▸ hP name k⟩
  constructor
  · rintro ⟨picked, hpicked, hp⟩
    obtain ⟨name, hname, hiff⟩ := hat hpicked
    exact ⟨name, hname, hiff.1 hp⟩
  · rintro ⟨name, hname, hp⟩
    have hlt : i < (disambiguate names).length := by
      rw [length_disambiguate]
      exact (List.getElem?_eq_some_iff.1 hname).1
    obtain ⟨name', hname', hiff⟩ := hat (List.getElem?_eq_getElem hlt)
    rw [hname, Option.some.injEq] at hname'
    exact ⟨_, List.getElem?_eq_getElem hlt, hiff.2 (hname' ▸ hp)⟩

end QueryPlan.Names
