import QueryPlan.Proofs.JoinNames.Alignment
import QueryPlan.Proofs.Plan.Construction

/-!
# Which columns the organisation of an output is told by

What is known about the organisation of an output names columns of the row it is the output of: the
columns by whose values the rows are spread, and those of the sort order. Every operator but one
keeps to this. It names columns of its own row if what is known about its inputs names columns of
theirs, since it passes on what is known only with the fields that this is about, in their places.

The exception is the projection. It passes on what is known about its input as it is, whatever
becomes of the fields. So what is known about a projection is about its own row only if each column
that is named for its input is kept, and at its place; and only if this is so at every projection
does everything that is known in a plan name the right columns.
-/

namespace QueryPlan

/-- The columns by whose values the rows are spread. -/
def Distribution.ordinals : Distribution → List Nat
  | .hash ordinals => ordinals
  | _ => []

namespace Traits

/-- The columns of the sort order, the first key first. -/
def sortOrdinals (t : Traits) : List Nat := (t.collation.getD []).map SortKey.ordinal

/-- All columns that are named. -/
def ordinals (t : Traits) : List Nat := t.distribution.ordinals ++ t.sortOrdinals

variable {t : Traits} {width : Nat}

@[simp] theorem ordinals_unknown : unknown.ordinals = [] := rfl

@[simp] theorem ordinals_distributed (d : Distribution) :
    (distributed d).ordinals = d.ordinals := List.append_nil _

/-- Only columns of a row of the given width are named. -/
def LieIn (t : Traits) (width : Nat) : Prop := ∀ i ∈ t.ordinals, i < width

theorem lieIn_iff : t.LieIn width ↔
    (∀ i ∈ t.distribution.ordinals, i < width) ∧ ∀ i ∈ t.sortOrdinals, i < width :=
  List.forall_mem_append

end Traits

/-- At the fields that one list names stand bare references to the columns that another list names
at the same places. -/
def RefersBy (exprs : List Expr) (fields columns : List Nat) : Prop :=
  ∀ k i : Nat, fields[k]? = some i →
    ∃ j, columns[k]? = some j ∧ exprs[i]?.bind Expr.bareOrdinal? = some j

/-- A list of columns is referred to by itself if each of its columns stays at its place. -/
theorem refersBy_self_iff {exprs : List Expr} {columns : List Nat} :
    RefersBy exprs columns columns ↔
      ∀ i ∈ columns, exprs[i]?.bind Expr.bareOrdinal? = some i := by
  constructor
  · intro h i hi
    obtain ⟨k, hk⟩ := List.mem_iff_getElem?.1 hi
    obtain ⟨j, hj, href⟩ := h k i hk
    rw [hk, Option.some.injEq] at hj
    rwa [← hj] at href
  · intro h k i hk
    exact ⟨i, hk, h i (List.mem_of_getElem? hk)⟩

namespace Plan

variable {p n : Plan} {s : NodeSupply}

/-- The topmost node, if it is an exchange, spreads its rows by columns they have. -/
def SpreadsByColumns : Plan → Prop
  | .transform _ (.exchange distribution) input => ∀ i ∈ distribution.ordinals, i < input.width
  | _ => True

/-- What is known about the topmost node names columns of its row. -/
def NamesColumns (p : Plan) : Prop := p.traits.LieIn p.width

/-- If the topmost node is a projection, then the fields that are named for it are bare references
to the columns that are named for its input in the same places. -/
def NamesReferences : Plan → Prop
  | .transform h (.project exprs _) input =>
    RefersBy exprs h.traits.distribution.ordinals input.traits.distribution.ordinals ∧
      RefersBy exprs h.traits.sortOrdinals input.traits.sortOrdinals
  | _ => True

/-- If the topmost node is a projection, then it has as many fields as it needs for each column that
is named for its input to have one at its place. -/
def CoversColumns : Plan → Prop
  | .transform _ (.project exprs _) input => input.traits.LieIn exprs.length
  | _ => True

/-- If the topmost node is a projection, then each column that is named for its input is kept at its
place. -/
def KeepsColumns : Plan → Prop
  | .transform _ (.project exprs _) input =>
    ∀ i ∈ input.traits.ordinals, exprs[i]?.bind Expr.bareOrdinal? = some i
  | _ => True

theorem KeepsColumns.coversColumns (h : p.KeepsColumns) : p.CoversColumns := by
  cases p with
  | source header op => trivial
  | join header algorithm spec left right => trivial
  | transform header op input =>
      cases op with
      | project exprs allowDuplicates =>
          intro i hi
          obtain ⟨e, he, -⟩ := Option.bind_eq_some_iff.1 (h i hi)
          exact (List.getElem?_eq_some_iff.1 he).1
      | _ => trivial

/-! ### One node -/

/-- The row of a projection has a field for each expression. -/
theorem RowFits.width_project {h : Header} {exprs : List Expr} {allowDuplicates : Bool}
    {input : Plan} (hrow : RowFits (.transform h (.project exprs allowDuplicates) input)) :
    h.schema.width = exprs.length := by
  rw [← Schema.length_types, hrow.2.1, List.length_map]

/-- What is known about a node names columns of its row if what is known about its inputs names
columns of theirs, and if, should it be a projection, its fields cover those columns. -/
theorem namesColumns_of_inputs (hrow : p.RowFits) (htraits : p.TraitsFit)
    (hspreads : p.SpreadsByColumns) (hcovers : p.CoversColumns)
    (hinputs : ∀ i ∈ p.inputs, i.NamesColumns) : p.NamesColumns := by
  rw [NamesColumns, traits]
  cases p with
  | source h op =>
      rw [header, htraits]
      cases op <;> simp [Source.traits, Traits.LieIn, Distribution.ordinals]
  | join h algorithm spec left right =>
      have hleft : left.NamesColumns := hinputs left (by simp [inputs])
      have hle : left.width ≤ h.schema.width := Nat.zero_add left.width ▸ hrow.1.left_le
      rw [header, htraits]
      intro i hi
      exact Nat.lt_of_lt_of_le ((Traits.lieIn_iff.1 hleft).2 i hi) hle
  | transform h op input =>
      have hinput : input.NamesColumns := hinputs input (by simp [inputs])
      rw [header, htraits]
      cases op with
      | filter predicate =>
          rw [width, schema_transform, hrow.2]
          exact hinput
      | project exprs allowDuplicates =>
          rw [width, schema_transform, hrow.width_project]
          exact hcovers
      | aggregate groupBy aggregates => simp [Transform.traits, Traits.LieIn]
      | sort order =>
          rw [width, schema_transform, hrow.2]
          exact Traits.lieIn_iff.2 ⟨(Traits.lieIn_iff.1 hinput).1, List.forall_mem_map.2 hrow.1⟩
      | limit offset count =>
          rw [width, schema_transform, hrow]
          exact hinput
      | exchange distribution =>
          rw [width, schema_transform, hrow, Transform.traits, Traits.LieIn,
            Traits.ordinals_distributed]
          exact hspreads
      | writer target => simp [Transform.traits, Traits.LieIn, Distribution.ordinals]
      | screen => simp [Transform.traits, Traits.LieIn, Distribution.ordinals]

/-- A projection of which something is known that is not about its row covers too little. -/
theorem NamesColumns.coversColumns (h : p.NamesColumns) (hrow : p.RowFits)
    (htraits : p.TraitsFit) : p.CoversColumns := by
  cases p with
  | source header op => trivial
  | join header algorithm spec left right => trivial
  | transform header op input =>
      cases op with
      | project exprs allowDuplicates =>
          rw [NamesColumns, traits, Plan.header, htraits, width, schema_transform,
            hrow.width_project] at h
          exact h
      | _ => trivial

/-- A projection refers to the named columns of its input at the places that are named for it,
which are the same places, if it keeps them there. -/
theorem namesReferences_iff_keepsColumns (htraits : p.TraitsFit) :
    p.NamesReferences ↔ p.KeepsColumns := by
  cases p with
  | source header op => exact Iff.rfl
  | join header algorithm spec left right => exact Iff.rfl
  | transform header op input =>
      cases op with
      | project exprs allowDuplicates =>
          have heq : header.traits = input.traits := htraits
          rw [NamesReferences, heq, refersBy_self_iff, refersBy_self_iff, KeepsColumns,
            Traits.ordinals, List.forall_mem_append]
      | _ => exact Iff.rfl

/-! ### All nodes of a plan -/

theorem everywhere_namesColumns_iff (hp : p.Everywhere fun n => n.RowFits ∧ n.TraitsFit)
    (hspreads : p.Everywhere SpreadsByColumns) :
    p.Everywhere NamesColumns ↔ p.Everywhere CoversColumns := by
  constructor
  · intro h n hn
    exact (h n hn).coversColumns (hp n hn).1 (hp n hn).2
  · -- From the leaves to the root: what an operator passes on it has from its inputs.
    induction p using inputs_induction with
    | node p ih =>
        intro hcovers
        rw [everywhere_iff_inputs] at hp hspreads hcovers ⊢
        have hinputs : ∀ i ∈ p.inputs, i.Everywhere NamesColumns := fun i hi =>
          ih i hi (hp.2 i hi) (hspreads.2 i hi) (hcovers.2 i hi)
        exact ⟨namesColumns_of_inputs hp.1.1 hp.1.2 hspreads.1 hcovers.1
          fun i hi => (hinputs i hi).self, hinputs⟩

theorem everywhere_and {P Q : Plan → Prop} :
    p.Everywhere (fun n => P n ∧ Q n) ↔ p.Everywhere P ∧ p.Everywhere Q :=
  forall₂_and

theorem everywhere_namesReferences_iff (hp : p.Everywhere fun n => n.RowFits ∧ n.TraitsFit)
    (hspreads : p.Everywhere SpreadsByColumns) :
    p.Everywhere (fun n => n.NamesColumns ∧ n.NamesReferences) ↔ p.Everywhere KeepsColumns := by
  have hrefers : p.Everywhere NamesReferences ↔ p.Everywhere KeepsColumns :=
    forall₂_congr fun n hn => namesReferences_iff_keepsColumns (hp n hn).2
  rw [everywhere_and, everywhere_namesColumns_iff hp hspreads, hrefers]
  exact and_iff_right_of_imp fun hkeeps n hn => (hkeeps n hn).coversColumns

/-- In a constructed plan that spreads rows by columns they have, let `n` be a node. What is known
about `n` and the nodes below names columns of their rows exactly if each projection there covers
the columns that are named for its input. At these projections the named fields are bare references
to those columns, too, exactly if each projection keeps them at their places. -/
theorem namesColumns_iff_of_constructed (hp : p.Constructed s)
    (hspreads : ∀ n ∈ p.preorder, n.SpreadsByColumns) :
    ∀ n ∈ p.preorder,
      ((∀ m ∈ n.preorder, m.NamesColumns) ↔ ∀ m ∈ n.preorder, m.CoversColumns) ∧
        ((∀ m ∈ n.preorder, m.NamesColumns ∧ m.NamesReferences) ↔
          ∀ m ∈ n.preorder, m.KeepsColumns) := by
  intro n hn
  have hfits : n.Everywhere fun m => m.RowFits ∧ m.TraitsFit :=
    fun m hm => hp.everywhere m (preorder_subset hn hm)
  have hspreads' : n.Everywhere SpreadsByColumns :=
    fun m hm => hspreads m (preorder_subset hn hm)
  exact ⟨everywhere_namesColumns_iff hfits hspreads',
    everywhere_namesReferences_iff hfits hspreads'⟩

end Plan

/-! The rows of a table spread by the second of two columns, and then shown with the first column
only or with both under other names. -/

namespace SpreadRows

def row : Schema := ⟨[⟨"a", .int64⟩, ⟨"b", .int64⟩]⟩

def table : Plan := .source ⟨⟨0⟩, row, .unknown⟩ (.scan ⟨"s", "t"⟩)

def spread : Plan :=
  .transform ⟨⟨1⟩, row, .distributed (.hash [1])⟩ (.exchange (.hash [1])) table

def narrowed : Plan :=
  .transform ⟨⟨2⟩, ⟨[⟨"a", .int64⟩]⟩, .distributed (.hash [1])⟩
    (.project [.row ⟨0, .int64⟩] false) spread

def renamed : Plan :=
  .transform ⟨⟨2⟩, ⟨[⟨"p", .int64⟩, ⟨"q", .int64⟩]⟩, .distributed (.hash [1])⟩
    (.project row.identity false) spread

theorem built_spread : Built [spread, table] ⟨2⟩ := by
  have htable : Built [table] ⟨1⟩ :=
    (Built.start ⟨0⟩).scan ⟨"s", "t"⟩ row
  exact htable.over (.exchange table (.hash [1])) rfl rfl

theorem constructed_narrowed : narrowed.Constructed ⟨3⟩ := by
  have hrun : (spread.project [.row ⟨0, .int64⟩] ["a"]).run ⟨2⟩ = .ok (narrowed, ⟨3⟩) :=
    Plan.run_projectWith_eq_ok_iff.2 ⟨by decide, fun _ => by decide +kernel, rfl, rfl, rfl⟩
  exact ⟨_, built_spread.over (.project spread [.row ⟨0, .int64⟩] ["a"]) rfl hrun,
    List.mem_cons_self⟩

theorem constructed_renamed : renamed.Constructed ⟨3⟩ := by
  have hrun : (spread.project row.identity ["p", "q"]).run ⟨2⟩ = .ok (renamed, ⟨3⟩) :=
    Plan.run_projectWith_eq_ok_iff.2 ⟨by decide, fun _ => by decide +kernel, rfl, rfl, rfl⟩
  exact ⟨_, built_spread.over (.project spread row.identity ["p", "q"]) rfl hrun,
    List.mem_cons_self⟩

theorem everywhere_spreadsByColumns : spread.Everywhere Plan.SpreadsByColumns := by
  have hspread : ∀ i ∈ (Distribution.hash [1]).ordinals, i < table.width := by decide
  exact Plan.everywhere_transform.2 ⟨hspread, Plan.everywhere_source.2 trivial⟩

/-- The rows are said to be spread by column 1 also where there is no such column any more. -/
theorem namesColumns_iff_of_constructed_spread :
    ¬ (∀ m ∈ narrowed.preorder, m.NamesColumns) ∧
      ∀ m ∈ renamed.preorder, m.NamesColumns ∧ m.NamesReferences := by
  have hnarrowed := Plan.namesColumns_iff_of_constructed constructed_narrowed
    (Plan.everywhere_transform.2 ⟨trivial, everywhere_spreadsByColumns⟩) narrowed
    (Plan.mem_preorder_self _)
  have hrenamed := Plan.namesColumns_iff_of_constructed constructed_renamed
    (Plan.everywhere_transform.2 ⟨trivial, everywhere_spreadsByColumns⟩) renamed
    (Plan.mem_preorder_self _)
  have hdropped : ¬ narrowed.CoversColumns := by
    intro hcovers
    exact absurd (hcovers 1 (List.mem_singleton_self 1)) (by decide)
  have hkept : renamed.KeepsColumns := by
    have hrefs : ∀ i ∈ spread.traits.ordinals,
        row.identity[i]?.bind Expr.bareOrdinal? = some i := by decide
    exact hrefs
  refine ⟨fun hnames => hdropped (hnarrowed.1.1 hnames narrowed (Plan.mem_preorder_self _)),
    hrenamed.2.2 ?_⟩
  exact Plan.everywhere_transform.2 ⟨hkept, Plan.everywhere_transform.2 ⟨trivial,
    Plan.everywhere_source.2 trivial⟩⟩

end SpreadRows

end QueryPlan
