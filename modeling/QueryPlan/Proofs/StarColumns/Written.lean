import QueryPlan.Proofs.StarColumns.Decisions
import QueryPlan.Proofs.StarColumns.Handed

/-!
# The columns that a plan writes

A plan that writes a table has a writer below its screen, and the names that the writer finds
below it are those that are written. The writer takes over the restoring of names, so none
are put back under the screen.

If no leaf gets a prefix, the plan is returned as it was. Otherwise the columns are written
under the handed names, star columns apart: a column that a projection renames is written
under the name that it has further down, and the name that the plan gives it is lost. Where
the projections leave the names of columns as they are, nothing is lost.
-/

namespace QueryPlan

namespace StarColumn

variable {σ σ' : StarState} {s s' : NodeSupply} {q input : Plan} {h h' : Header}
  {target : Table}

/-- The walk prefixes a leaf just if one needs a prefix. The screen and the writer do not
count. -/
theorem Becomes.prefixedLeaves_eq_zero_iff
    (hwalk : Becomes {} s (.transform h .screen (.transform h' (.writer target) input)) q σ s') :
    σ.prefixedLeaves = 0 ↔ ∀ site ∈ input.leafSites, needsPrefix site = false := by
  have hcount : σ.prefixedLeaves = (input.leafSites.map needsPrefix).count true := by
    rw [hwalk.decisions_eq.2, map_needsPrefix_leafSites, Nat.zero_add]
    rfl
  rw [hcount, List.count_eq_zero, List.mem_map]
  constructor
  · intro hnone site hsite
    exact Bool.eq_false_iff.2 fun hneeds => hnone ⟨site, hsite, hneeds⟩
  · rintro hnone ⟨site, hsite, hneeds⟩
    rw [hnone site hsite] at hneeds
    cases hneeds

/-- The writer and the screen are kept together, or both are put over what their input has
become. -/
theorem Becomes.exists_written
    (hwalk : Becomes {} s (.transform h .screen (.transform h' (.writer target) input)) q σ s') :
    (σ.prefixedLeaves = 0 ∧ q = .transform h .screen (.transform h' (.writer target) input)) ∨
      0 < σ.prefixedLeaves ∧ ∃ k k' input' σ₀ σ₁ s₁,
        q = .transform k .screen (.transform k' (.writer target) input') ∧
          Becomes σ₀ s input input' σ₁ s₁ := by
  have hzero := hwalk.prefixedLeaves_eq_zero fun _ => rfl
  cases hwalk with
  | transform hwriter hscreen =>
    cases hwriter with
    | transform hinput hwriter =>
      cases hscreen with
      | screenKept hnothing => exact Or.inl ⟨hnothing.elim hzero id, rfl⟩
      | screenRebuilt hneeded hprefixed =>
          cases hwriter with
          | writerKept hnot =>
              rw [hneeded] at hnot
              cases hnot
          | writerRebuilt =>
              exact Or.inr ⟨hprefixed, _, _, _, _, _, _, rfl, hinput⟩
          | kept hop | rebuilt hop => cases hop
      | screenRestored hneeded _ hwriter' =>
          -- A writer that has been left with the flag set has taken over the names.
          cases hwriter with
          | writerKept hnot =>
              rw [hneeded] at hnot
              cases hnot
          | writerRebuilt => cases hwriter'
          | kept hop | rebuilt hop => cases hop
      | kept hop | rebuilt hop => cases hop

/-- Of two rows that agree, star columns apart, an ordinary name is in both at the same
places. -/
theorem getElem?_eq_some_iff_of_agree {names names' : List String}
    (hnames : List.Forall₂ (Names.Agree IsStarKey) names names') (i : Nat) {name : String}
    (hname : IsOrdinary name) : names'[i]? = some name ↔ names[i]? = some name := by
  have hrel := Names.rel_getElem? hnames i
  generalize names[i]? = a, names'[i]? = b at hrel ⊢
  cases hrel with
  | none => exact Iff.rfl
  | @some a b hab =>
      rcases hab with ⟨ha, hb⟩ | ⟨-, rfl⟩
      · refine iff_of_false ?_ ?_
        · rintro ⟨⟩
          exact hname.not_isStarKey hb
        · rintro ⟨⟩
          exact hname.not_isStarKey ha
      · exact Iff.rfl

end StarColumn

open StarColumn (needsPrefix IsOrdinary)

/-- A plan that writes the rows of `q` to a table is returned as one that writes to the same
table, and the columns it writes have the types that they had. If no leaf needs a prefix, it is
the very plan. Otherwise the names that it writes are the handed ones of `q`, as far as they
are ordinary. These are the names of `q` if no projection gives a column another name. -/
theorem Plan.exists_written_of_run_separateStars {h h' : Header} {target : Table}
    {q p' : Plan} {s s' : NodeSupply}
    (hp : (Plan.transform h .screen (.transform h' (.writer target) q)).Constructed s)
    (hscreens : ∀ n ∈ q.preorder, n.kind ≠ .screen)
    (hrun : (Plan.transform h .screen (.transform h' (.writer target) q)).separateStars.run s =
      .ok (p', s')) :
    ∃ k k' q', p' = .transform k .screen (.transform k' (.writer target) q') ∧
      q'.schema.types = q.schema.types ∧
      ((∀ site ∈ q.leafSites, needsPrefix site = false) →
        p' = .transform h .screen (.transform h' (.writer target) q)) ∧
      ((∃ site ∈ q.leafSites, needsPrefix site = true) →
        ∀ (i : Nat) (name : String), IsOrdinary name →
          (q'.fieldNames[i]? = some name ↔ q.handedNames[i]? = some name)) ∧
      ((∀ n ∈ q.preorder, n.KeepsNames) →
        ∀ (i : Nat) (name : String), IsOrdinary name →
          (q'.fieldNames[i]? = some name ↔ q.fieldNames[i]? = some name)) := by
  obtain ⟨σ, hwith⟩ := StarColumn.exists_run_separateStarsWith hrun
  obtain ⟨hwalk, -⟩ := StarColumn.becomes_of_run_separateStarsWith hp hwith
  have hq : q.WellFormed :=
    (wellFormed_transform.1 (wellFormed_transform.1 hp.wellFormed).2).2
  have hzero := hwalk.prefixedLeaves_eq_zero_iff
  rcases hwalk.exists_written with ⟨hnothing, rfl⟩ | ⟨hprefixed, k, k', q', σ₀, σ₁, s₁, rfl, hbelow⟩
  · refine ⟨h, h', q, rfl, rfl, fun _ => rfl, ?_, fun _ i name _ => Iff.rfl⟩
    rintro ⟨site, hsite, hneeds⟩
    rw [hzero.1 hnothing site hsite] at hneeds
    cases hneeds
  · have hnames : ∀ (i : Nat) (name : String), IsOrdinary name →
        (q'.fieldNames[i]? = some name ↔ q.handedNames[i]? = some name) := fun i _ =>
      StarColumn.getElem?_eq_some_iff_of_agree (hbelow.agree hq hscreens) i
    refine ⟨k, k', q', rfl, (hbelow.wellFormed hq).2, ?_, fun _ => hnames, fun hkeeps => ?_⟩
    · intro hnone
      exact absurd (hzero.2 hnone) (Nat.ne_of_gt hprefixed)
    · rwa [← handedNames_eq_of_keepsNames hq hkeeps]

/-! The rows of a table with a star column, one column of it under a name to be given, and a
constant, written to another table. -/

namespace CopiedSales

def row : Schema := ⟨[⟨"**", .utf8⟩, ⟨"amount", .int64⟩]⟩

def copiedRow (name : String) : Schema :=
  ⟨[⟨"**", .utf8⟩, ⟨name, .int64⟩, ⟨"one", .int64⟩]⟩

def exprs : List Expr := [.row ⟨0, .utf8⟩, .row ⟨1, .int64⟩, .literal (.int64 1)]

def sales : Plan := .source ⟨⟨0⟩, row, .unknown⟩ (.scan ⟨"db", "sales"⟩)

def chosen (name : String) : Plan :=
  .transform ⟨⟨1⟩, copiedRow name, .unknown⟩ (.project exprs false) sales

def written (name : String) : Plan :=
  .transform ⟨⟨2⟩, Plan.writerSchema, .distributed .single⟩ (.writer ⟨"dfs", "copy"⟩)
    (chosen name)

def copied (name : String) : Plan :=
  .transform ⟨⟨3⟩, Plan.writerSchema, .distributed .single⟩ .screen (written name)

theorem constructed_copied {name : String}
    (hname : Names.distinct ["**", name, "one"] = true) : (copied name).Constructed ⟨4⟩ := by
  have hsales : Built [sales] ⟨1⟩ :=
    (Built.start ⟨0⟩).scan ⟨"db", "sales"⟩ row
  have hrun : (sales.project exprs ["**", name, "one"]).run ⟨1⟩ = .ok (chosen name, ⟨2⟩) :=
    Plan.run_projectWith_eq_ok_iff.2 ⟨by decide, fun _ => hname, rfl, rfl, rfl⟩
  have hchosen : Built [chosen name, sales] ⟨2⟩ :=
    hsales.over (.project sales exprs ["**", name, "one"]) rfl hrun
  have hwritten : Built [written name, chosen name, sales] ⟨3⟩ :=
    hchosen.over (.writer (chosen name) ⟨"dfs", "copy"⟩) rfl rfl
  have hcopied : Built [copied name, written name, chosen name, sales] ⟨4⟩ :=
    hwritten.over (.screen (written name)) rfl rfl
  exact ⟨_, hcopied, List.mem_cons_self⟩

theorem keepsNames_chosen : ∀ n ∈ (chosen "amount").preorder, n.KeepsNames := by
  refine Plan.everywhere_transform.2 ⟨⟨by decide +kernel, ?_⟩, Plan.everywhere_source.2 trivial⟩
  intro i o e he hbare
  match i with
  | 0 | 1 =>
      cases he
      cases hbare
      rfl
  | 2 =>
      cases he
      cases hbare
  | i + 3 => cases he

/-- Under the names that they have in the table all columns but the star column are written as
they were chosen. -/
theorem exists_written_of_run_separateStars_copied :
    ∃ p' s' k k' q', (copied "amount").separateStars.run ⟨4⟩ = .ok (p', s') ∧
      p' = .transform k .screen (.transform k' (.writer ⟨"dfs", "copy"⟩) q') ∧
      q'.fieldNames[1]? = some "amount" ∧ q'.fieldNames[2]? = some "one" := by
  have hscreens : ∀ n ∈ (chosen "amount").preorder, n.kind ≠ .screen := by decide
  obtain ⟨p', s', hrun⟩ := PlanM.exists_run_of_isOk (x := (copied "amount").separateStars)
    (s := ⟨4⟩) (by decide +kernel)
  obtain ⟨k, k', q', hwritten, -, -, -, hnames⟩ := Plan.exists_written_of_run_separateStars
    (constructed_copied (by decide +kernel)) hscreens hrun
  have hamount : IsOrdinary "amount" :=
    StarColumn.isOrdinary_of_head? (by decide +kernel) (by decide +kernel)
  have hone : IsOrdinary "one" :=
    StarColumn.isOrdinary_of_head? (by decide +kernel) (by decide +kernel)
  exact ⟨p', s', k, k', q', hrun, hwritten, (hnames keepsNames_chosen 1 "amount" hamount).2 rfl,
    (hnames keepsNames_chosen 2 "one" hone).2 rfl⟩

/-- Under another name the column is written as it is called in the table. -/
example : ((copied "total").separateStars.run ⟨4⟩).toOption.map
    (fun r => (r.1.inputs.flatMap Plan.inputs).map Plan.fieldNames) =
      some [["T0$**", "amount", "one"]] := by
  decide +kernel

end CopiedSales

end QueryPlan
