import QueryPlan.Proofs.Names.Numbering

/-!
# How far the search for a number goes

The search for a number begins at zero and goes on to the next number as long as the one at hand
is taken. Nothing in it says that it ends. It does, because the names in the way are finitely many
and every number makes another name; and of `n` names it never tries a number beyond `n - 2`.

What is in the way of a name are the given names and the names chosen before it. These are up to
`2 * n` keys, but a name that is like a given one was given itself, so the keys of the chosen names
and of the given ones from the name's own place on are all. This makes one key for each place. At
two of the places, the name's own and the one of an earlier name like it, stands the key without a
number, which no number leads to. So `n - 2` numbers at most are taken.

Of lower case only this is used, that a number stays at the end of a name (`fold_numbered`).
-/

namespace QueryPlan.Names

variable {inTheWay names : List String} {name : String} {i k : Nat}

/-- The search comes to the number: it begins at zero, and it leaves a number that is taken for the
next one. -/
inductive Tried (inTheWay : List String) (name : String) : Nat → Prop where
  | first : Tried inTheWay name 0
  | next {k : Nat} : Tried inTheWay name k → fold (numbered name k) ∈ inTheWay →
    Tried inTheWay name (k + 1)

/-- The keys that the name at a place must avoid. -/
def keysInTheWay (names : List String) (i : Nat) : List String :=
  names.map fold ++ ((disambiguate names).take i).map fold

/-- A number is tried if all smaller ones are taken. -/
theorem tried_iff : Tried inTheWay name k ↔ ∀ l < k, fold (numbered name l) ∈ inTheWay := by
  constructor
  · intro h
    induction h with
    | first => exact fun l hl => absurd hl (Nat.not_lt_zero l)
    | @next k _ htaken ih =>
        intro l hl
        rcases Nat.lt_succ_iff_lt_or_eq.1 hl with hl | rfl
        · exact ih l hl
        · exact htaken
  · intro h
    induction k with
    | zero => exact .first
    | succ k ih => exact .next (ih fun l hl => h l (Nat.lt_succ_of_lt hl)) (h k k.lt_succ_self)

theorem Tried.of_isLeast (h : IsLeast {k | fold (numbered name k) ∉ inTheWay} k) :
    Tried inTheWay name k := by
  refine tried_iff.2 fun l hl => ?_
  by_contra hfree
  exact Nat.not_le_of_lt hl (h.2 hfree)

/-- What is in the way and has a number stands at another place than the name itself and a name
before it that is like it. -/
theorem mem_erase_of_mem_keysInTheWay (hname : names[i]? = some name)
    (htaken : fold (numbered name k) ∈ keysInTheWay names i) :
    fold (numbered name k) ∈ (((disambiguate names).take i).map fold).erase (fold name) ++
      (names.drop (i + 1)).map fold := by
  have hne : fold (numbered name k) ≠ fold name := fold_numbered_ne name k
  obtain ⟨hlt, hget⟩ := List.getElem?_eq_some_iff.1 hname
  have hsplit : names = names.take i ++ name :: names.drop (i + 1) := by
    rw [← hget, ← List.drop_eq_getElem_cons hlt, List.take_append_drop]
  have hbefore : fold (numbered name k) ∈ ((disambiguate names).take i).map fold →
      fold (numbered name k) ∈ (((disambiguate names).take i).map fold).erase (fold name) ++
        (names.drop (i + 1)).map fold :=
    fun h => List.mem_append_left _ ((List.mem_erase_of_ne hne).2 h)
  rcases List.mem_append.1 htaken with hgiven | hchosen
  · have hplaces := hgiven
    rw [hsplit, List.map_append, List.map_cons, List.mem_append, List.mem_cons] at hplaces
    rcases hplaces with hearlier | hown | hlater
    · exact hbefore ((mem_take_disambiguate_iff hgiven).2 hearlier)
    · exact absurd hown hne
    · exact List.mem_append_right _ hlater
  · exact hbefore hchosen

/-- Beside `n` names, one of which stands before the place and is like the name there, no number
beyond `n - 2` is tried. -/
theorem Tried.add_two_le (hname : names[i]? = some name)
    (hold : fold name ∈ (names.take i).map fold) (h : Tried (keysInTheWay names i) name k) :
    k + 2 ≤ names.length := by
  have hmem : fold name ∈ ((disambiguate names).take i).map fold :=
    (mem_take_disambiguate_iff (List.mem_map_of_mem (List.mem_of_getElem? hname))).2 hold
  have hsubset : (List.range k).map (fun l => fold (numbered name l)) ⊆
      (((disambiguate names).take i).map fold).erase (fold name) ++
        (names.drop (i + 1)).map fold := by
    intro key hkey
    obtain ⟨l, hl, rfl⟩ := List.mem_map.1 hkey
    exact mem_erase_of_mem_keysInTheWay hname (tried_iff.1 h l (List.mem_range.1 hl))
  have hnodup := List.nodup_range.map (fold_numbered_injective name) (l := List.range k)
  have hlength := hnodup.length_le_of_subset hsubset
  have hpos : 0 < (((disambiguate names).take i).map fold).length := List.length_pos_of_mem hmem
  have hlt : i < names.length := (List.getElem?_eq_some_iff.1 hname).1
  simp only [List.length_map, List.length_range, List.length_append, List.length_drop,
    List.length_erase_of_mem hmem, List.length_take, length_disambiguate] at hlength hpos
  omega

/-- A name that was renamed is like one before it. -/
theorem mem_take_of_renamed (hname : names[i]? = some name)
    (hrenamed : (disambiguate names)[i]? ≠ some name) : fold name ∈ (names.take i).map fold := by
  by_contra hnew
  exact hrenamed (((tellsApart names).kept_iff i name hname).2 hnew)

/-- Names that are all the same are numbered in order, without a gap. -/
theorem disambiguate_replicate (name : String) (n : Nat) :
    disambiguate (List.replicate (n + 1) name) = name :: (List.range n).map (numbered name) := by
  have hplace {i : Nat} {name' : String} (h : (List.replicate (n + 1) name)[i]? = some name') :
      i < n + 1 ∧ name = name' := by
    simpa [List.getElem?_replicate] using h
  refine (tellsApart _).unique ⟨by simp, ?_, fun i name' hname => ?_, fun i name' hname hold => ?_⟩
  · rw [List.map_cons, List.map_map, List.nodup_cons]
    refine ⟨fun hmem => ?_, List.nodup_range.map (fold_numbered_injective name)⟩
    obtain ⟨k, -, heq⟩ := List.mem_map.1 hmem
    exact fold_numbered_ne name k heq
  · obtain ⟨hlt, rfl⟩ := hplace hname
    cases i with
    | zero => simp
    | succ i =>
        have hi : i < n := Nat.lt_of_succ_lt_succ hlt
        have hne : numbered name i ≠ name := fun heq =>
          fold_numbered_ne name i (congrArg fold heq)
        simp [List.take_replicate, hne, hlt]
  · obtain ⟨hlt, rfl⟩ := hplace hname
    cases i with
    | zero => simp at hold
    | succ i =>
        have hi : i < n := Nat.lt_of_succ_lt_succ hlt
        have hbefore : (name :: (List.range n).map (numbered name)).take (i + 1) =
            name :: (List.range i).map (numbered name) := by
          rw [List.take_succ_cons, ← List.map_take, List.take_range, Nat.min_eq_left hi.le]
        refine ⟨i, by simp [List.getElem?_range hi], ?_, fun k hk => ?_⟩
        · rw [Set.mem_ofPred_eq, hbefore]
          simpa [fold_numbered_ne] using fun k hk heq =>
            Nat.ne_of_lt hk (fold_numbered_injective name heq)
        · rw [Set.mem_ofPred_eq, hbefore] at hk
          by_contra hle
          have hchosen : numbered name k ∈ (List.range i).map (numbered name) :=
            List.mem_map_of_mem (List.mem_range.2 (Nat.lt_of_not_le hle))
          exact hk (List.mem_append_right _ (List.mem_cons_of_mem _ (List.mem_map_of_mem hchosen)))

/-- A name that is renamed gets its number from a search that ends. It tries no number beyond
`n - 2`, where `n` is the number of names, so the number stays far below the last ordinal. No bound
below this one holds: of `n + 2` names that are all the same the last one gets the number `n`. -/
theorem search_bounded :
    (∀ (names : List String) (i : Nat) (name : String), names[i]? = some name →
      (disambiguate names)[i]? ≠ some name →
        (∀ k, Tried (keysInTheWay names i) name k → k + 2 ≤ names.length) ∧
        ∃ k, Tried (keysInTheWay names i) name k ∧
          fold (numbered name k) ∉ keysInTheWay names i ∧
          (disambiguate names)[i]? = some (numbered name k)) ∧
      ∀ (name : String) (n : Nat),
        (disambiguate (List.replicate (n + 2) name))[n + 1]? = some (numbered name n) := by
  refine ⟨fun names i name hname hrenamed => ?_, fun name n => ?_⟩
  · have hold : fold name ∈ (names.take i).map fold := mem_take_of_renamed hname hrenamed
    obtain ⟨k, hk, hleast⟩ := (tellsApart names).exists_number i name hname hold
    exact ⟨fun k hk => hk.add_two_le hname hold, k, .of_isLeast hleast, hleast.1, hk⟩
  · rw [disambiguate_replicate]
    simp

/-- The last name finds `c10` among the given names and `c11` among the chosen ones. -/
theorem search_bounded_full :
    ["c1", "C1", "c10", "c1"][3]? = some "c1" ∧
      (disambiguate ["c1", "C1", "c10", "c1"])[3]? ≠ some "c1" ∧
      (∀ k, Tried (keysInTheWay ["c1", "C1", "c10", "c1"] 3) "c1" k → k + 2 ≤ 4) ∧
      ∃ k, Tried (keysInTheWay ["c1", "C1", "c10", "c1"] 3) "c1" k ∧
        fold (numbered "c1" k) ∉ keysInTheWay ["c1", "C1", "c10", "c1"] 3 ∧
        (disambiguate ["c1", "C1", "c10", "c1"])[3]? = some (numbered "c1" k) := by
  have hrenamed : (disambiguate ["c1", "C1", "c10", "c1"])[3]? ≠ some "c1" := by decide +kernel
  exact ⟨rfl, hrenamed, search_bounded.1 ["c1", "C1", "c10", "c1"] 3 "c1" rfl hrenamed⟩

end QueryPlan.Names
