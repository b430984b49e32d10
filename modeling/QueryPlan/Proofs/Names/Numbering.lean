import Mathlib.Order.Bounds.Basic
import QueryPlan.Proofs.Names

/-!
# Which names get a number

A name gets a number if an earlier field was given a name that is like it, and no other name
does. That is less than obvious, since a name is compared with the names chosen before and not
with those given. But a number is appended only if the result is like none of the given names, so
a chosen name that is like a given one was given itself: what stands in the way of a name before
its turn are the given names before it.

The number is the least one that is free. The names that were given and the ones chosen before
settle it, so from left to right there is no choice, and the names that are told apart are
determined by what is said about them here.
-/

namespace QueryPlan.Names

variable {inTheWay given chosen names picked picked' : List String} {name key : String}
  {i k : Nat}

/-- The second list is the first one with its names told apart. -/
structure TellsApart (names picked : List String) : Prop where
  length_eq : picked.length = names.length
  /-- No two names are alike. -/
  nodup : (picked.map fold).Nodup
  /-- A name stays as it is if it is like none of those given before it. -/
  kept_iff : ∀ i name, names[i]? = some name →
    (picked[i]? = some name ↔ fold name ∉ (names.take i).map fold)
  /-- Otherwise it gets the least number that makes it unlike all given names and unlike all
  names picked before it. -/
  exists_number : ∀ i name, names[i]? = some name → fold name ∈ (names.take i).map fold →
    ∃ k, picked[i]? = some (numbered name k) ∧
      IsLeast {k | fold (numbered name k) ∉ names.map fold ++ (picked.take i).map fold} k

theorem isLeast_of_freeNumber? (h : freeNumber? inTheWay name = some k) :
    IsLeast {k | fold (numbered name k) ∉ inTheWay} k := by
  refine ⟨fold_numbered_notMem_of_freeNumber? h, fun l hl => ?_⟩
  by_contra hlt
  obtain ⟨-, -, htaken⟩ := List.find?_range_eq_some.1 h
  exact hl (by simpa using htaken l (Nat.lt_of_not_le hlt))

/-- The name at a place is chosen beside the names that were chosen before it. -/
theorem getElem?_disambiguateFrom (hname : names[i]? = some name) :
    (disambiguateFrom given chosen names)[i]? = some (choose given
      ((((disambiguateFrom given chosen names).take i).map fold).reverse ++ chosen) name) := by
  induction names generalizing chosen i with
  | nil => simp at hname
  | cons first rest ih =>
      cases i with
      | zero =>
          rw [List.getElem?_cons_zero, Option.some.injEq] at hname
          simp [disambiguateFrom, hname]
      | succ i =>
          rw [List.getElem?_cons_succ] at hname
          simpa [disambiguateFrom] using @ih (fold (choose given chosen first) :: chosen) i hname

/-- A name keeps its form beside names that are unlike it, and beside a name like it it gets the
least free number. -/
theorem getElem?_disambiguate (hname : names[i]? = some name) :
    (fold name ∉ ((disambiguate names).take i).map fold →
        (disambiguate names)[i]? = some name) ∧
      (fold name ∈ ((disambiguate names).take i).map fold →
        ∃ k, (disambiguate names)[i]? = some (numbered name k) ∧
          IsLeast {k | fold (numbered name k) ∉
            names.map fold ++ ((disambiguate names).take i).map fold} k) := by
  have hpicked : (disambiguate names)[i]? = some (choose (names.map fold)
      ((((disambiguate names).take i).map fold).reverse ++ []) name) :=
    getElem?_disambiguateFrom hname
  rw [List.append_nil] at hpicked
  constructor
  · intro hnew
    rw [hpicked, choose_of_notMem (by rwa [List.mem_reverse])]
  · intro hold
    obtain ⟨k, hk, hchoose⟩ :=
      @choose_of_mem (names.map fold) _ name (List.mem_reverse.2 hold)
    refine ⟨k, by rw [hpicked, hchoose], ?_⟩
    simpa only [List.mem_append, List.mem_reverse] using isLeast_of_freeNumber? hk

/-- What is like a given name was picked before a place if it was given before it. -/
theorem mem_take_disambiguate_iff (hkey : key ∈ names.map fold) :
    key ∈ ((disambiguate names).take i).map fold ↔ key ∈ (names.take i).map fold := by
  induction i with
  | zero => simp
  | succ i ih =>
      cases hname : names[i]? with
      | none =>
          have hlength : names.length ≤ i := List.getElem?_eq_none_iff.1 hname
          have hall : ∀ l : List String, l.length = names.length → l.take (i + 1) = l.take i := by
            intro l hl
            rw [List.take_of_length_le (by omega), List.take_of_length_le (by omega)]
          rw [hall _ (length_disambiguate names), hall names rfl]
          exact ih
      | some name =>
          obtain ⟨hkept, hnumbered⟩ := getElem?_disambiguate hname
          rw [List.take_add_one, List.take_add_one, hname, List.map_append, List.map_append,
            List.mem_append, List.mem_append, ih]
          by_cases hold : fold name ∈ ((disambiguate names).take i).map fold
          · -- The number makes the name unlike all given ones, and the name itself was there.
            obtain ⟨k, hk, hleast⟩ := hnumbered hold
            have hfree : fold (numbered name k) ∉ names.map fold := fun hmem =>
              hleast.1 (List.mem_append_left _ hmem)
            have hne : key ≠ fold (numbered name k) := fun heq => hfree (heq ▸ hkey)
            rw [hk]
            simp only [Option.toList_some, List.map_cons, List.map_nil, List.mem_singleton, hne,
              or_false]
            refine ⟨Or.inl, fun h => h.elim id fun heq => ?_⟩
            rw [← ih, heq]
            exact hold
          · rw [hkept hold]

/-- The names that are told apart are as required. -/
theorem tellsApart (names : List String) : TellsApart names (disambiguate names) where
  length_eq := length_disambiguate names
  nodup := (distinct_iff _).1 (distinct_disambiguate names)
  kept_iff i name hname := by
    have hgiven : fold name ∈ names.map fold :=
      List.mem_map_of_mem (List.mem_of_getElem? hname)
    obtain ⟨hkept, hnumbered⟩ := getElem?_disambiguate hname
    rw [← mem_take_disambiguate_iff hgiven]
    refine ⟨fun hpicked hold => ?_, hkept⟩
    obtain ⟨k, hk, hleast⟩ := hnumbered hold
    have heq : name = numbered name k := Option.some.inj (hpicked.symm.trans hk)
    exact hleast.1 (List.mem_append_left _ (heq ▸ hgiven))
  exists_number i name hname hold := by
    have hgiven : fold name ∈ names.map fold :=
      List.mem_map_of_mem (List.mem_of_getElem? hname)
    exact (getElem?_disambiguate hname).2 ((mem_take_disambiguate_iff hgiven).2 hold)

/-- What is required of the names determines them, from left to right. -/
theorem TellsApart.unique (h : TellsApart names picked) (h' : TellsApart names picked') :
    picked = picked' := by
  have hlength : picked.length = picked'.length := h.length_eq.trans h'.length_eq.symm
  have htake : ∀ i, picked.take i = picked'.take i := by
    intro i
    induction i with
    | zero => rfl
    | succ i ih =>
        have hat : picked[i]? = picked'[i]? := by
          cases hname : names[i]? with
          | none =>
              have hend : names.length ≤ i := List.getElem?_eq_none_iff.1 hname
              rw [List.getElem?_eq_none (h.length_eq ▸ hend),
                List.getElem?_eq_none (h'.length_eq ▸ hend)]
          | some name =>
              by_cases hold : fold name ∈ (names.take i).map fold
              · obtain ⟨k, hk, hleast⟩ := h.exists_number i name hname hold
                obtain ⟨l, hl, hleast'⟩ := h'.exists_number i name hname hold
                rw [ih] at hleast
                rw [hk, hl, hleast.unique hleast']
              · rw [(h.kept_iff i name hname).2 hold, (h'.kept_iff i name hname).2 hold]
        rw [List.take_add_one, List.take_add_one, ih, hat]
  have hall := htake picked.length
  rwa [List.take_length, hlength, List.take_length] at hall

/-- Names stay as they are exactly if no two of them are alike. -/
theorem disambiguate_eq_self_iff : disambiguate names = names ↔ distinct names = true := by
  refine ⟨fun heq => ?_, disambiguate_of_distinct⟩
  rw [← heq]
  exact distinct_disambiguate names

/-- Telling names apart gives the one list that is as required. Names of which no two are alike
stay as they are, and no others do; in particular a second time changes nothing. -/
theorem tellsApart_iff_eq_disambiguate (names : List String) :
    (∀ picked, TellsApart names picked ↔ picked = disambiguate names) ∧
      (disambiguate names = names ↔ distinct names = true) ∧
      disambiguate (disambiguate names) = disambiguate names := by
  refine ⟨fun picked => ⟨fun h => h.unique (tellsApart names), ?_⟩, disambiguate_eq_self_iff,
    disambiguate_of_distinct (distinct_disambiguate names)⟩
  rintro rfl
  exact tellsApart names

example : disambiguate ["c1", "C1", "c10", "c1"] = ["c1", "C11", "c10", "c12"] := by
  decide +kernel

end QueryPlan.Names
