import QueryPlan.Proofs.StarColumns.Decisions

/-!
# The walk prefixes the leaves that need it

When the walk comes to a leaf, its flag says whether an ambiguous node stands before the leaf
in the plan, and its counter is the next number. So the walk over a subtree prefixes exactly
the leaves that need it, with the next numbers. A screen or a writer may throw away what its
input has become. It does so only when nothing was prefixed.
-/

namespace QueryPlan

open StarColumn (inRow withPrefixes)

/-- The node is the projection that hands on the row of the leaf and puts the prefix of number
`k` before the star columns. -/
def Plan.Prefixes (node : Plan) (k : Nat) (leaf : Plan) : Prop :=
  ∃ h, node = .transform h (.project leaf.schema.identity false) leaf ∧
    h.schema = .ofNamesTypes (withPrefixes k leaf.fieldNames) leaf.schema.types ∧
    h.traits = leaf.traits

namespace StarColumn

variable {σ σ' : StarState} {s s' : NodeSupply} {p q : Plan} {h : Header}

/-- Once a leaf has been prefixed, no leaf with a star column is handed up bare. -/
theorem Becomes.inRow_eq_false (hwalk : Becomes σ s p q σ' s')
    (hσ : σ.prefixNeeded = false → σ.prefixedLeaves = 0) (hq : q.isLeaf = true)
    (hprefixed : 0 < σ'.prefixedLeaves) : inRow q.schema = false := by
  induction hwalk with
  | @source σ _ _ _ _ _ _ hstep =>
      cases hstep with
      | kept hrow =>
          cases hneeded : σ.prefixNeeded with
          | true => exact hrow hneeded
          | false =>
              rw [hσ hneeded] at hprefixed
              cases hprefixed
      | prefixed => cases hq
  | transform _ hstep ih =>
      cases hstep with
      | projectDropped =>
          refine ih (fun hneeded => hσ ?_) hq hprefixed
          exact (Bool.or_eq_false_iff.1 hneeded).1
      | writerKept | screenKept | kept | writerRebuilt | screenRebuilt | screenRestored
      | projectRebuilt | rebuilt => cases hq
  | join _ _ hstep => cases hstep <;> cases hq

section Sites

/-- The node above the leaf is none that has been made since `s₀` to prefix it. -/
def Unprefixed (s₀ : NodeSupply) (parent : Option Plan) (leaf : Plan) : Prop :=
  inRow leaf.schema = true →
    ∀ w, parent = some w → s₀.next ≤ w.id.index → ∀ k, ¬ w.Prefixes k leaf

/-- The leaf has been prefixed with its number, if it has one, since `s₀`. -/
def PrefixedAs (s₀ : NodeSupply) : Option Nat → Option Plan × Plan → Prop
  | some k, (parent, leaf) => ∃ w, parent = some w ∧ s₀.next ≤ w.id.index ∧ w.Prefixes k leaf
  | none, (parent, leaf) => Unprefixed s₀ parent leaf

variable {s₀ : NodeSupply}

theorem unprefixed_of_old {w leaf : Plan} (hw : w.id.index < s₀.next) :
    Unprefixed s₀ (some w) leaf := by
  intro _ w' heq hnew
  cases heq
  exact absurd hnew (Nat.not_le.2 hw)

theorem unprefixed_of_ne {w leaf : Plan} (hw : ∀ k, ¬ w.Prefixes k leaf) :
    Unprefixed s₀ (some w) leaf := by
  intro _ w' heq _
  cases heq
  exact hw

/-- No leaf of a plan that was there is prefixed by a new node. -/
theorem forall₂_prefixedAs_of_old (hold : ∀ n ∈ p.preorder, n.id.index < s₀.next)
    {parent : Option Plan} (hparent : p.isLeaf = true → Unprefixed s₀ parent p) :
    List.Forall₂ (PrefixedAs s₀) (List.replicate p.leaves.length none)
      (p.leafParents parent) := by
  induction p generalizing parent with
  | source h op => exact .cons (hparent rfl) .nil
  | transform h op input ih =>
      rw [Plan.leaves_transform]
      refine ih (fun n hn => hold n (Plan.mem_preorder_transform.2 (Or.inr hn))) fun _ => ?_
      exact unprefixed_of_old (hold _ (Plan.mem_preorder_self _))
  | join h algorithm spec left right ihl ihr =>
      have hself := hold _ (Plan.mem_preorder_self _)
      rw [Plan.leaves_join, List.length_append, List.replicate_add]
      refine List.rel_append ?_ ?_
      · exact ihl (fun n hn => hold n (Plan.mem_preorder_join.2 (Or.inr (Or.inl hn))))
          fun _ => unprefixed_of_old hself
      · exact ihr (fun n hn => hold n (Plan.mem_preorder_join.2 (Or.inr (Or.inr hn))))
          fun _ => unprefixed_of_old hself

theorem LeavesLeaf.prefixedAs {op : Source} (hstep : LeavesLeaf σ s h op q σ' s')
    (hs : s₀.next ≤ s.next) {parent : Option Plan}
    (hparent : q.isLeaf = true → Unprefixed s₀ parent q) :
    List.Forall₂ (PrefixedAs s₀)
      (σ.nextIds (.source h op)) (q.leafParents parent) := by
  rw [StarState.nextIds, Plan.preorder]
  cases hstep with
  | kept hrow =>
      rw [leafMarks_of_kept hrow]
      exact .cons (hparent rfl) .nil
  | prefixed hneeded hrow =>
      rw [leafMarks_of_prefixed hneeded hrow]
      exact .cons ⟨_, rfl, hs, _, rfl, rfl, rfl⟩ .nil

theorem LeavesTransform.prefixedAs {op : Transform} {input input' : Plan}
    {ids : List (Option Nat)} (hstep : LeavesTransform σ s h op input input' q σ' s')
    (hold : ∀ n ∈ (Plan.transform h op input).preorder, n.id.index < s₀.next)
    (hnone : σ.prefixNeeded = false ∨ σ.prefixedLeaves = 0 →
      ids = List.replicate input.leaves.length none)
    (hbare : input'.isLeaf = true → 0 < σ.prefixedLeaves → inRow input'.schema = false)
    (hinput : ∀ parent, (input'.isLeaf = true → Unprefixed s₀ parent input') →
      List.Forall₂ (PrefixedAs s₀) ids (input'.leafParents parent)) {parent : Option Plan}
    (hparent : q.isLeaf = true → Unprefixed s₀ parent q) :
    List.Forall₂ (PrefixedAs s₀) ids (q.leafParents parent) := by
  have hinner : ∀ {h' : Header} {op' : Transform}, (∀ allowDuplicates,
      op' ≠ .project input'.schema.identity allowDuplicates) →
      List.Forall₂ (PrefixedAs s₀) ids (input'.leafParents (some (.transform h' op' input'))) := by
    intro h' op' hop
    refine hinput _ fun _ => unprefixed_of_ne ?_
    rintro k ⟨_, heq, -⟩
    cases heq
    exact hop false rfl
  cases hstep with
  | writerKept hneeded =>
      rw [hnone (Or.inl hneeded), ← Plan.leaves_transform (h := h)]
      exact forall₂_prefixedAs_of_old hold hparent
  | screenKept hnothing =>
      rw [hnone hnothing, ← Plan.leaves_transform (h := h)]
      exact forall₂_prefixedAs_of_old hold hparent
  | writerRebuilt | screenRebuilt => exact hinner fun _ heq => by cases heq
  | screenRestored _ hprefixed =>
      -- The projection that restores the names may look like one that prefixes a leaf.
      refine hinput _ fun hleaf hrow => ?_
      rw [hbare hleaf hprefixed] at hrow
      cases hrow
  | projectDropped => exact hinput parent hparent
  | projectRebuilt hidentity =>
      refine hinner fun _ heq => ?_
      cases heq
      rw [Plan.handsOn_iff.2 rfl] at hidentity
      cases hidentity
  | kept =>
      exact hinput _ fun _ => unprefixed_of_old (hold _ (Plan.mem_preorder_self _))
  | rebuilt hop =>
      refine hinner fun _ heq => ?_
      rw [heq] at hop
      cases hop

theorem LeavesJoin.prefixedAs {algorithm : JoinAlgorithm} {spec : JoinSpec}
    {left right left' right' : Plan} {ids ids' : List (Option Nat)}
    (hstep : LeavesJoin s h algorithm spec left right left' right' q s')
    (hold : ∀ n ∈ (Plan.join h algorithm spec left right).preorder, n.id.index < s₀.next)
    (hleft : ∀ parent, (left'.isLeaf = true → Unprefixed s₀ parent left') →
      List.Forall₂ (PrefixedAs s₀) ids (left'.leafParents parent))
    (hright : ∀ parent, (right'.isLeaf = true → Unprefixed s₀ parent right') →
      List.Forall₂ (PrefixedAs s₀) ids' (right'.leafParents parent)) (parent : Option Plan) :
    List.Forall₂ (PrefixedAs s₀) (ids ++ ids') (q.leafParents parent) := by
  cases hstep with
  | kept =>
      have hself := hold _ (Plan.mem_preorder_self _)
      exact List.rel_append (hleft _ fun _ => unprefixed_of_old hself)
        (hright _ fun _ => unprefixed_of_old hself)
  | rebuilt =>
      have hjoin : ∀ leaf k, ¬ (Plan.join (s.header (.join left'.schema right'.schema
          spec.joinType) h.traits.forgetDistribution) algorithm spec left' right').Prefixes k
            leaf := by
        rintro leaf k ⟨_, heq, -⟩
        cases heq
      exact List.rel_append (hleft _ fun _ => unprefixed_of_ne (hjoin _))
        (hright _ fun _ => unprefixed_of_ne (hjoin _))

/-- The walk over a plan prefixes the leaves that need it with the next numbers, and no
others. -/
theorem Becomes.prefixedAs (hwalk : Becomes σ s p q σ' s') (hs : s₀.next ≤ s.next)
    (hσ : σ.prefixNeeded = false → σ.prefixedLeaves = 0)
    (hold : ∀ n ∈ p.preorder, n.id.index < s₀.next) {parent : Option Plan}
    (hparent : q.isLeaf = true → Unprefixed s₀ parent q) :
    List.Forall₂ (PrefixedAs s₀) (σ.nextIds p) (q.leafParents parent) := by
  induction hwalk generalizing parent with
  | source hstep => exact hstep.prefixedAs hs hparent
  | @transform σ _ _ _ _ _ h op input _ _ hinput hstep ih =>
      have hσ' : (σ.entering (.transform h op input)).prefixNeeded = false →
          σ.prefixedLeaves = 0 := fun hneeded => hσ (Bool.or_eq_false_iff.1 hneeded).1
      have hold' : ∀ n ∈ input.preorder, n.id.index < s₀.next := fun n hn =>
        hold n (Plan.mem_preorder_transform.2 (Or.inr hn))
      rw [StarState.nextIds_transform]
      exact hstep.prefixedAs hold hinput.nextIds_eq_replicate (hinput.inRow_eq_false hσ')
        (fun _ => ih hs hσ' hold') hparent
  | @join σ σ₁ _ _ _ _ _ h algorithm spec left right _ _ _ hleft hright hstep ihl ihr =>
      have hσ' : (σ.entering (.join h algorithm spec left right)).prefixNeeded = false →
          σ.prefixedLeaves = 0 := fun hneeded => hσ (Bool.or_eq_false_iff.1 hneeded).1
      have hlold : ∀ n ∈ left.preorder, n.id.index < s₀.next := fun n hn =>
        hold n (Plan.mem_preorder_join.2 (Or.inr (Or.inl hn)))
      have hrold : ∀ n ∈ right.preorder, n.id.index < s₀.next := fun n hn =>
        hold n (Plan.mem_preorder_join.2 (Or.inr (Or.inr hn)))
      -- The walk over the right input goes on with the flag and the counter of the left one.
      rw [hleft.nextIds_join]
      exact hstep.prefixedAs hold (fun _ => ihl hs hσ' hlold)
        (fun _ => ihr (Nat.le_trans hs hleft.next_le) (hleft.prefixedLeaves_eq_zero hσ') hrold) _

end Sites

/-- A leaf with a star column is prefixed with one number only. -/
theorem eq_of_prefixes {w leaf : Plan} {k l : Nat} (hrow : inRow leaf.schema = true)
    (hk : w.Prefixes k leaf) (hl : w.Prefixes l leaf) : k = l := by
  obtain ⟨h, rfl, hknames, -⟩ := hk
  obtain ⟨h', heq, hlnames, -⟩ := hl
  cases heq
  have hlength : ∀ m, (withPrefixes m leaf.fieldNames).length = leaf.schema.types.length := by
    intro m
    simp [withPrefixes, Plan.fieldNames]
  have hnames := congrArg Schema.names (hknames.symm.trans hlnames)
  rw [Schema.names_ofNamesTypes (hlength k), Schema.names_ofNamesTypes (hlength l)] at hnames
  obtain ⟨name, hmem, hbare⟩ := List.any_eq_true.1 hrow
  have hname := List.map_inj_left.1 hnames name hmem
  rw [if_pos hbare, if_pos hbare] at hname
  by_contra hne
  exact fold_withPrefix_ne hne name name (congrArg Names.fold hname)

/-- What the pass on star columns does at the leaves of the plan `p`, if it returns `q` and
has decided `σ` by its end. -/
structure PrefixesLeaves (p q : Plan) (σ : StarState) : Prop where
  /-- Prefixes turn out to be needed just if a node is ambiguous. -/
  prefixNeeded_iff : σ.prefixNeeded = true ↔ ∃ n ∈ p.preorder, isAmbiguous n = true
  /-- A leaf with a star column is put under a projection that prefixes it just if an
  ambiguous node comes before it. -/
  prefixed_iff : ∀ (i : Nat) (before : List Plan) (leaf : Plan),
    p.leafSites[i]? = some (before, leaf) → inRow leaf.schema = true →
      ((∃ w k, (q.leafParents none)[i]? = some (some w, leaf) ∧ w ∉ p.preorder ∧
          w.Prefixes k leaf) ↔
        ∃ n ∈ before, isAmbiguous n = true)
  /-- The number in the prefix is the table id of the leaf. -/
  tableId_iff : ∀ i k : Nat, (tableIds p)[i]? = some (some k) ↔
    ∃ w leaf, (q.leafParents none)[i]? = some (some w, leaf) ∧ inRow leaf.schema = true ∧
      w ∉ p.preorder ∧ w.Prefixes k leaf
  /-- Table ids are given from zero on, from left to right. -/
  tableIds_eq : (tableIds p).reduceOption = List.range σ.prefixedLeaves
  /-- The leaves are the very nodes they were. -/
  leaves_eq : q.leaves = p.leaves
  /-- No name under the prefix of one leaf is like a name under the prefix of another. -/
  fold_ne : ∀ i j k l : Nat, i ≠ j → (tableIds p)[i]? = some (some k) →
    (tableIds p)[j]? = some (some l) →
      ∀ n m, Names.fold (withPrefix k n) ≠ Names.fold (withPrefix l m)

namespace PrefixesLeaves

/-- At every leaf the table id, the node above it and what the plan says about it. -/
theorem exists_site (hall : List.Forall₂ (PrefixedAs s) (tableIds p) (q.leafParents none))
    (hleaves : q.leaves = p.leaves) {i : Nat} {parent : Option Plan} {leaf : Plan}
    (hi : (q.leafParents none)[i]? = some (parent, leaf)) :
    ∃ id before, (tableIds p)[i]? = some id ∧ PrefixedAs s id (parent, leaf) ∧
      p.leafSites[i]? = some (before, leaf) ∧ id.isSome = needsPrefix (before, leaf) := by
  obtain ⟨id, hid, has⟩ := Names.exists_getElem?_of_forall₂ hall hi
  have hleaf : (p.leafSites.map Prod.snd)[i]? = some leaf := by
    rw [Plan.map_snd_leafSites, ← hleaves, ← Plan.map_snd_leafParents none, List.getElem?_map, hi]
    rfl
  rw [List.getElem?_map, Option.map_eq_some_iff] at hleaf
  obtain ⟨⟨before, _⟩, hsite, rfl⟩ := hleaf
  have hmark : ((tableIds p).map Option.isSome)[i]? = (p.leafSites.map needsPrefix)[i]? := by
    rw [tableIds, isSome_numberFrom]
  rw [List.getElem?_map, List.getElem?_map, hid, hsite] at hmark
  exact ⟨id, before, hid, has, hsite, Option.some.inj hmark⟩

/-- What was not in the plan is new, and the other way round. -/
theorem notMem_preorder_iff (hwalk : Becomes σ s p q σ' s')
    (hold : ∀ n ∈ p.preorder, n.id.index < s.next) {i : Nat} {w leaf : Plan}
    (hi : (q.leafParents none)[i]? = some (some w, leaf)) :
    w ∉ p.preorder ↔ s.next ≤ w.id.index := by
  have hw : w ∈ q.preorder := by
    rcases Plan.mem_preorder_of_mem_leafParents (List.mem_of_getElem? hi) with hnone | hw
    · cases hnone
    · exact hw
  constructor
  · intro hnot
    exact (hwalk.mem_preorder hw).resolve_left hnot
  · intro hle hmem
    exact Nat.not_le.2 (hold w hmem) hle

/-- A leaf with a star column has an ambiguous node before it just if it is prefixed. -/
theorem exists_prefixes_iff (hwalk : Becomes σ s p q σ' s')
    (hold : ∀ n ∈ p.preorder, n.id.index < s.next)
    (hall : List.Forall₂ (PrefixedAs s) (tableIds p) (q.leafParents none)) {i : Nat}
    {before : List Plan} {leaf : Plan} (hsite : p.leafSites[i]? = some (before, leaf))
    (hrow : inRow leaf.schema = true) :
    (∃ w k, (q.leafParents none)[i]? = some (some w, leaf) ∧ w ∉ p.preorder ∧ w.Prefixes k leaf) ↔
      ∃ n ∈ before, isAmbiguous n = true := by
  have hneeds : needsPrefix (before, leaf) = true ↔ ∃ n ∈ before, isAmbiguous n = true := by
    rw [needsPrefix, hrow, Bool.true_and, List.any_eq_true]
  have hleaf : ((q.leafParents none).map Prod.snd)[i]? = some leaf := by
    rw [Plan.map_snd_leafParents, hwalk.leaves_eq, ← Plan.map_snd_leafSites, List.getElem?_map,
      hsite]
    rfl
  rw [List.getElem?_map, Option.map_eq_some_iff] at hleaf
  obtain ⟨⟨parent, _⟩, hi, rfl⟩ := hleaf
  obtain ⟨id, before', -, has, hsite', hmark⟩ := exists_site hall hwalk.leaves_eq hi
  rw [hsite, Option.some.injEq, Prod.mk.injEq] at hsite'
  rw [← hneeds, hsite'.1, ← hmark]
  cases id with
  | none =>
      refine iff_of_false ?_ Bool.false_ne_true
      rintro ⟨w, k, hw, hnot, hprefixes⟩
      rw [notMem_preorder_iff hwalk hold hw] at hnot
      rw [hi, Option.some.injEq, Prod.mk.injEq] at hw
      exact has hrow w hw.1 hnot k hprefixes
  | some k =>
      obtain ⟨w, rfl, hnew, hprefixes⟩ := has
      exact iff_of_true ⟨w, k, hi, (notMem_preorder_iff hwalk hold hi).2 hnew, hprefixes⟩ rfl

/-- The table id of a leaf is the number in its prefix. -/
theorem getElem?_tableIds_iff (hwalk : Becomes σ s p q σ' s')
    (hold : ∀ n ∈ p.preorder, n.id.index < s.next)
    (hall : List.Forall₂ (PrefixedAs s) (tableIds p) (q.leafParents none)) {i k : Nat} :
    (tableIds p)[i]? = some (some k) ↔
      ∃ w leaf, (q.leafParents none)[i]? = some (some w, leaf) ∧ inRow leaf.schema = true ∧
        w ∉ p.preorder ∧ w.Prefixes k leaf := by
  constructor
  · intro hid
    have hlength : i < (q.leafParents none).length :=
      hall.length_eq ▸ (List.getElem?_eq_some_iff.1 hid).1
    obtain ⟨⟨parent, leaf⟩, hi⟩ : ∃ site, (q.leafParents none)[i]? = some site :=
      ⟨_, List.getElem?_eq_getElem hlength⟩
    obtain ⟨id, before, hid', has, -, hmark⟩ := exists_site hall hwalk.leaves_eq hi
    rw [hid, Option.some.injEq] at hid'
    rw [← hid'] at has hmark
    obtain ⟨w, rfl, hnew, hprefixes⟩ := has
    exact ⟨w, leaf, hi, (Bool.and_eq_true_iff.1 hmark.symm).1,
      (notMem_preorder_iff hwalk hold hi).2 hnew, hprefixes⟩
  · rintro ⟨w, leaf, hi, hrow, hnot, hprefixes⟩
    have hnew := (notMem_preorder_iff hwalk hold hi).1 hnot
    obtain ⟨id, before, hid, has, -, -⟩ := exists_site hall hwalk.leaves_eq hi
    cases id with
    | none => exact absurd hprefixes (has hrow w rfl hnew k)
    | some l =>
        obtain ⟨w', heq, -, hprefixes'⟩ := has
        cases heq
        rw [hid, eq_of_prefixes hrow hprefixes hprefixes']

end PrefixesLeaves

end StarColumn

open StarColumn in
/-- The pass on star columns prefixes the leaves of a constructed plan that need it, and it
numbers them from left to right. -/
theorem Plan.prefixesLeaves_of_run_separateStarsWith {p q : Plan} {σ : StarState}
    {s s' : NodeSupply} (hp : p.Constructed s)
    (hrun : p.separateStarsWith.run s = .ok ((q, σ), s')) : PrefixesLeaves p q σ := by
  obtain ⟨hwalk, -⟩ := becomes_of_run_separateStarsWith hp hrun
  have hold := hp.id_lt
  obtain ⟨hflag, hcount⟩ := hwalk.decisions_eq
  have hall : List.Forall₂ (PrefixedAs s) (tableIds p) (q.leafParents none) := by
    rw [StarState.tableIds_eq_nextIds]
    refine hwalk.prefixedAs (Nat.le_refl _) (fun _ => rfl) hold fun _ _ w hw => ?_
    cases hw
  refine ⟨?_, fun i before leaf => PrefixesLeaves.exists_prefixes_iff hwalk hold hall,
    fun i k => PrefixesLeaves.getElem?_tableIds_iff hwalk hold hall, ?_, hwalk.leaves_eq, ?_⟩
  · rw [hflag, Bool.false_or, List.any_eq_true]
  · rw [tableIds, reduceOption_numberFrom, map_needsPrefix_leafSites, hcount, Nat.zero_add,
      List.range_eq_range']
  · intro i j k l hij hi hj n m
    refine fold_withPrefix_ne ?_ n m
    rintro rfl
    exact hij (eq_of_getElem?_numberFrom hi hj)

theorem SwappedStars.prefixesLeaves_of_run_separateStarsWith_shown :
    ∃ q σ s', shown.separateStarsWith.run ⟨5⟩ = .ok ((q, σ), s') ∧
      StarColumn.PrefixesLeaves shown q σ := by
  obtain ⟨⟨q, σ⟩, s', hrun⟩ :=
    PlanM.exists_run_of_isOk (x := shown.separateStarsWith) (s := ⟨5⟩) (by decide +kernel)
  exact ⟨q, σ, s', hrun, Plan.prefixesLeaves_of_run_separateStarsWith constructed_shown hrun⟩

end QueryPlan
