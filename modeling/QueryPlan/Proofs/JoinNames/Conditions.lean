import QueryPlan.Proofs.Join.KeyConditions
import QueryPlan.Proofs.Join.Resolution
import QueryPlan.Proofs.JoinNames.Walk

/-!
# What aligned joins say about their inputs

The conditions that execution is handed speak about the fields of the inputs by name, and they
were written over the ordinals of the combined row. In an aligned join the names of the inputs
make up the names of the combined row. So the name that stands for an ordinal is the one that the
join has there, and as no two names of a join are alike, different ordinals have names that
cannot be mixed up.
-/

namespace QueryPlan

namespace Expr

variable {f : RowRef → Except PlanError Expr} {g : RowRef → Option Expr} {P : Nat → Prop}

theorem exists_replaceEach
    (hagree : ∀ r : RowRef, P r.ordinal → ∃ e, f r = .ok e ∧ g r = some e) (rs : List RowRef)
    (h : ∀ r ∈ rs, P r.ordinal) : ∃ as, replaceEach f rs = .ok as ∧ replaceEach g rs = some as := by
  induction rs with
  | nil => exact ⟨[], rfl, rfl⟩
  | cons r rs ih =>
      rw [List.forall_mem_cons] at h
      obtain ⟨e, hf, hg⟩ := hagree r h.1
      obtain ⟨as, hfs, hgs⟩ := ih h.2
      refine ⟨(r, e) :: as, ?_, ?_⟩
      · rw [replaceEach_cons, hf, hfs]
        rfl
      · rw [replaceEach_cons, hg, hgs]
        rfl

/-- Replacements that agree at the ordinals of an expression make the same of it. -/
theorem exists_mapRefs (hagree : ∀ r : RowRef, P r.ordinal → ∃ e, f r = .ok e ∧ g r = some e)
    (e : Expr) (h : ∀ i ∈ e.ordinals, P i) :
    ∃ e', e.mapRefs f = .ok e' ∧ e.mapRefs g = some e' := by
  rw [← map_ordinal_refs, List.forall_mem_map] at h
  obtain ⟨as, hf, hg⟩ := exists_replaceEach hagree e.refs h
  obtain ⟨x, hx, hmap⟩ := exists_filling f e
  obtain ⟨y, hy, hmap'⟩ := exists_filling g e
  rw [hf] at hx
  rw [hg] at hy
  obtain ⟨filling, rfl, hfirst⟩ := Option.map_eq_some_iff.1 hy
  cases x with
  | error error => cases hx
  | ok filling' =>
      have heq : filling'.replacements = filling.replacements :=
        (Except.ok.inj hx).trans hfirst.symm
      refine ⟨filling.result, ?_, hmap'.symm⟩
      rw [← filling'.filled.unique filling.filled heq, ← hmap]
      rfl

end Expr

theorem names_of_keyConditionAt {conjuncts : List Expr} {leftNames rightNames : List String}
    {position : Nat} {key : Nat × Nat} {c : KeyCondition}
    (h : keyConditionAt conjuncts leftNames rightNames position key = .ok c) :
    leftNames[key.1]? = some c.left.name ∧ rightNames[key.2]? = some c.right.name := by
  have hof := isConditionOf_of_keyConditionAt h
  exact ⟨hof.left_eq, hof.right_eq⟩

/-- The field of an input that an ordinal of the combined row stands for, under the name that the
join has at the ordinal. -/
def ownRef (row : Schema) (leftWidth : Nat) (r : RowRef) : Option SideRef :=
  row.names[r.ordinal]?.map fun name =>
    if r.ordinal < leftWidth then ⟨0, r.ordinal, name, r.type⟩
    else ⟨1, r.ordinal - leftWidth, name, r.type⟩

theorem ResolvesTo.ownRef_eq {leftNames rightNames : List String} {row : Schema} {r : RowRef}
    {c : SideRef} (h : ResolvesTo leftNames rightNames r c)
    (hnames : leftNames ++ rightNames = row.names) :
    ownRef row leftNames.length r = some c := by
  rw [ownRef, ← hnames, h.name_eq, Option.map_some]
  obtain ⟨side, ordinal, name, type⟩ := c
  obtain ⟨-, rfl, ⟨rfl, rfl, hlt⟩ | ⟨rfl, hplace, -⟩⟩ := h
  · rw [if_pos hlt]
  · have hle : leftNames.length ≤ r.ordinal := hplace ▸ Nat.le_add_right _ _
    rw [if_neg (Nat.not_lt.2 hle), ← hplace, Nat.add_sub_cancel_left]

/-- The conditions of a join, as they are handed to execution, have the names of the join. -/
structure SpeaksOfOwnNames (h : Header) (spec : JoinSpec) (left p : Plan) : Prop where
  /-- The names in the condition of a key are those at the left ordinal and, behind the left
  fields, at the right ordinal. -/
  keys : ∀ conditions, p.keyConditions = .ok conditions →
    List.Forall₂ (fun (key : Nat × Nat) (c : KeyCondition) =>
      h.schema.names[key.1]? = some c.left.name ∧
        h.schema.names[left.width + key.2]? = some c.right.name) spec.keys conditions
  /-- In the extra condition every reference is replaced by one under the name at its ordinal. -/
  extra : ∃ e, p.extraCondition true = .ok e ∧ ∀ e', e = some e' → ∃ extra,
    spec.extra = some extra ∧
      extra.mapRefs (fun r => Expr.side <$> ownRef h.schema left.width r) = some e'
  /-- Different ordinals have names that are not alike. -/
  distinct : ∀ r r' c c', ownRef h.schema left.width r = some c →
    ownRef h.schema left.width r' = some c' → Names.fold c.name = Names.fold c'.name →
      r.ordinal = r'.ordinal

section Aligned

variable {h : Header} {algorithm : JoinAlgorithm} {spec : JoinSpec} {left right : Plan}

/-- The names of the inputs of an aligned join are the names of the join. -/
theorem Plan.IsAligned.fieldNames_append
    (haligned : (Plan.join h algorithm spec left right).IsAligned)
    (hfits : spec.Fits left.schema right.schema h.schema)
    (hemits : spec.joinType.emitsRight = true) :
    left.fieldNames ++ right.fieldNames = h.schema.names := by
  rw [haligned.1, haligned.2 hemits]
  exact Schema.namesAt_append (hfits.width_eq hemits)

variable (hnames : left.fieldNames ++ right.fieldNames = h.schema.names)

include hnames

theorem getElem?_names_left {i : Nat} {name : String} (hname : left.fieldNames[i]? = some name) :
    h.schema.names[i]? = some name := by
  rw [← hnames, List.getElem?_append_left (List.getElem?_eq_some_iff.1 hname).1, hname]

theorem getElem?_names_right {i : Nat} {name : String}
    (hname : right.fieldNames[i]? = some name) :
    h.schema.names[left.width + i]? = some name := by
  have hwidth : left.fieldNames.length = left.width := left.schema.length_names
  rw [← hnames, ← hwidth, List.getElem?_append_right (Nat.le_add_right _ _),
    Nat.add_sub_cancel_left, hname]

/-- A reference to the combined row is resolved under the name that the join has. -/
theorem exists_sideRef (r : RowRef) (hr : r.ordinal < left.width + right.width) :
    ∃ c, sideRef left.fieldNames right.fieldNames r = .ok c ∧
      ownRef h.schema left.width r = some c := by
  have hleft : left.fieldNames.length = left.width := left.schema.length_names
  have hright : right.fieldNames.length = right.width := right.schema.length_names
  rw [← hleft, ← hright] at hr
  obtain ⟨c, hside, hresolves⟩ := exists_sideRef_eq_ok hr
  exact ⟨c, hside, hleft ▸ hresolves.ownRef_eq hnames⟩

/-- An expression over the combined row is resolved under the names that the join has. -/
theorem exists_resolveSides {e : Expr} (he : ∀ i ∈ e.ordinals, i < left.width + right.width) :
    ∃ e', e.resolveSides left.fieldNames right.fieldNames = .ok e' ∧
      e.mapRefs (fun r => Expr.side <$> ownRef h.schema left.width r) = some e' := by
  refine Expr.exists_mapRefs (P := (· < left.width + right.width)) (fun r hr => ?_) e he
  obtain ⟨c, hside, hown⟩ := exists_sideRef hnames r hr
  exact ⟨.side c, by rw [hside]; rfl, by rw [hown]; rfl⟩

end Aligned

theorem name_of_ownRef {row : Schema} {leftWidth : Nat} {r : RowRef} {c : SideRef}
    (h : ownRef row leftWidth r = some c) : row.names[r.ordinal]? = some c.name := by
  obtain ⟨name, hname, rfl⟩ := Option.map_eq_some_iff.1 h
  rw [hname]
  split <;> rfl

/-- Names of which no two are alike tell ordinals apart. -/
theorem ordinal_eq_of_fold_eq {names : List String} (hdistinct : Names.distinct names = true)
    {i j : Nat} {name name' : String} (hi : names[i]? = some name) (hj : names[j]? = some name')
    (hfold : Names.fold name = Names.fold name') : i = j := by
  have hlt : i < (names.map Names.fold).length := by
    rw [List.length_map]
    exact (List.getElem?_eq_some_iff.1 hi).1
  refine (List.getElem?_inj hlt ((Names.distinct_iff _).1 hdistinct)).1 ?_
  rw [List.getElem?_map, List.getElem?_map, hi, hj, Option.map_some, Option.map_some, hfold]

namespace Plan

variable {h : Header} {algorithm : JoinAlgorithm} {spec : JoinSpec} {left right : Plan}

/-- The conditions of an aligned join have the names of the join. -/
theorem IsAligned.speaksOfOwnNames (haligned : (join h algorithm spec left right).IsAligned)
    (hfits : spec.Fits left.schema right.schema h.schema)
    (hemits : spec.joinType.emitsRight = true) :
    SpeaksOfOwnNames h spec left (.join h algorithm spec left right) := by
  have hnames := haligned.fieldNames_append hfits hemits
  constructor
  case keys =>
    intro conditions hok
    have hall := forall₂_of_mapM_eq_ok hok
    rw [spec.zip_keys] at hall
    refine List.forall₂_iff_get.2 ⟨?_, fun i hi hi' => ?_⟩
    · simpa using hall.length_eq
    · have hat := hall.get (by simpa using hi) hi'
      simp only [List.get_eq_getElem, List.getElem_zipIdx] at hat
      obtain ⟨hl, hr⟩ := names_of_keyConditionAt hat
      exact ⟨getElem?_names_left hnames hl, getElem?_names_right hnames hr⟩
  case extra =>
    rcases extraCondition_join_cases h algorithm spec left right true with
      hnone | ⟨extra, hextra, hresolve⟩
    · refine ⟨none, hnone, ?_⟩
      rintro e' ⟨⟩
    · obtain ⟨e, hresolved, hown⟩ :=
        exists_resolveSides hnames (hfits.1 extra (by simp [hextra]))
      refine ⟨some e, by rw [hresolve, hresolved]; rfl, ?_⟩
      rintro e' ⟨⟩
      exact ⟨extra, hextra, hown⟩
  case distinct =>
    intro r r' c c' hc hc' hfold
    exact ordinal_eq_of_fold_eq (hfits.distinct_names hemits) (name_of_ownRef hc)
      (name_of_ownRef hc') hfold

/-- When the names of the join inputs of a constructed plan agree with the joins, every join that
emits right rows speaks of its inputs under its own names. -/
theorem speaksOfOwnNames_of_alignJoins {p : Plan} {s : NodeSupply} (hp : p.Constructed s) :
    ∃ q s', p.alignJoins.run s = .ok (q, s') ∧
      ∀ h algorithm spec left right, join h algorithm spec left right ∈ q.preorder →
        spec.joinType ≠ .semi → spec.joinType ≠ .anti →
          SpeaksOfOwnNames h spec left (join h algorithm spec left right) := by
  obtain ⟨R, rfl, hmem⟩ := hp.exists_register
  obtain ⟨q, R', hrun, -, -, hfrom⟩ := yields_alignJoins hmem hp.wellFormed
  obtain ⟨hfits, haligned⟩ := hfrom.wellFormed hp.wellFormed
  refine ⟨q, R'.supply, hrun, fun h algorithm spec left right hn hsemi hanti => ?_⟩
  have hemits : spec.joinType.emitsRight = true := by
    cases htype : spec.joinType with
    | semi => exact absurd htype hsemi
    | anti => exact absurd htype hanti
    | inner | left | right | full => rfl
  exact (haligned _ hn).speaksOfOwnNames (hfits _ hn).1 hemits

end Plan

/-! Two tables with the same names, joined by a key and with an extra condition. -/

namespace TwinTables

def row : Schema := ⟨[⟨"id", .int64⟩, ⟨"v", .int64⟩]⟩

def joinedRow : Schema := ⟨[⟨"id", .int64⟩, ⟨"v", .int64⟩, ⟨"id0", .int64⟩, ⟨"v0", .int64⟩]⟩

def table (i : Nat) (name : String) : Plan :=
  .source ⟨⟨i⟩, row, .unknown⟩ (.scan ⟨"db", name⟩)

def less : Expr := .binary .lt (.row ⟨1, .int64⟩) (.row ⟨3, .int64⟩)

def onId : JoinSpec :=
  ⟨.inner, .and [.binary .eq (.row ⟨0, .int64⟩) (.row ⟨2, .int64⟩), less], [(0, 0)], some less⟩

def joined : Plan :=
  .join ⟨⟨2⟩, joinedRow, .unknown⟩ .hash onId (table 0 "a") (table 1 "b")

theorem built_tables : Built [table 1 "b", table 0 "a"] ⟨2⟩ :=
  ((Built.start ⟨0⟩).scan ⟨"db", "a"⟩ row).scan ⟨"db", "b"⟩ row

theorem run_joinWith_joined :
    (Plan.joinWith .hash onId (table 0 "a") (table 1 "b")).run ⟨2⟩ = .ok (joined, ⟨3⟩) :=
  Plan.run_joinWith_of_join_eq (by decide) (by decide) (by decide +kernel)

theorem built_joined : Built [joined, table 1 "b", table 0 "a"] ⟨3⟩ :=
  built_tables.join (by simp) (by simp) run_joinWith_joined

theorem constructed_joined : joined.Constructed ⟨3⟩ := ⟨_, built_joined, List.mem_cons_self⟩

/-- The right table is put under the names of the join, which stand in its conditions. -/
theorem speaksOfOwnNames_of_alignJoins_joined :
    ∃ q s', joined.alignJoins.run ⟨3⟩ = .ok (q, s') ∧
      q.keyConditions.map (List.map KeyCondition.render) = .ok ["`id` EQUALS `id0`"] ∧
      (q.extraCondition true).map (Option.map Expr.render) = .ok (some "<($0.v, $1.v0)") ∧
      ∀ h algorithm spec left right, .join h algorithm spec left right ∈ q.preorder →
        spec.joinType ≠ .semi → spec.joinType ≠ .anti →
          SpeaksOfOwnNames h spec left (.join h algorithm spec left right) := by
  obtain ⟨q, s', hrun, hall⟩ := Plan.speaksOfOwnNames_of_alignJoins constructed_joined
  have hkeys : ((joined.alignJoins.run ⟨3⟩).bind fun r =>
      r.1.keyConditions.map (List.map KeyCondition.render)) = .ok ["`id` EQUALS `id0`"] := by
    decide +kernel
  have hextra : ((joined.alignJoins.run ⟨3⟩).bind fun r =>
      (r.1.extraCondition true).map (Option.map Expr.render)) =
        .ok (some "<($0.v, $1.v0)") := by decide +kernel
  rw [hrun] at hkeys hextra
  exact ⟨q, s', hrun, hkeys, hextra, hall⟩

end TwinTables

end QueryPlan
