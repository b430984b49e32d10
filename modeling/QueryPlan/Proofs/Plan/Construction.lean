import Mathlib.Data.Set.Function
import QueryPlan.Proofs.Plan.Register
import QueryPlan.Proofs.Plan.WellFormed

/-!
# Constructed plans

A plan is constructed when every node of it was made by the function for its operator, one
after the other, each over nodes that had been made before. This is what a planner can
produce, and it is what the passes are given. Between two nodes identities may have gone to
nodes that do not matter here.

Constructed plans are well-formed, what is known about the output of each node follows from
its inputs, and their nodes can be told by their identities.
-/

namespace QueryPlan

/-- A call of a function that makes the node of an operator. -/
inductive Construction where
  | scan (table : Table) (schema : Schema)
  | values (schema : Schema) (rows : Nat)
  | filter (input : Plan) (predicate : Expr)
  | project (input : Plan) (exprs : List Expr) (names : List String)
  | projectAllowingDuplicates (input : Plan) (exprs : List Expr) (names : List String)
  | join (algorithm : JoinAlgorithm) (spec : JoinSpec) (left right : Plan)
  | aggregate (input : Plan) (groupBy : List Nat) (aggregates : List Aggregate)
  | sort (input : Plan) (order : List SortKey)
  | limit (input : Plan) (offset count : Nat)
  | exchange (input : Plan) (distribution : Distribution)
  | writer (input : Plan) (target : Table)
  | screen (input : Plan)

namespace Construction

/-- The plans that the new node is put over. -/
def inputs : Construction → List Plan
  | .scan _ _ | .values _ _ => []
  | .join _ _ left right => [left, right]
  | .filter input _ | .project input _ _ | .projectAllowingDuplicates input _ _
  | .aggregate input _ _ | .sort input _ | .limit input _ _ | .exchange input _
  | .writer input _ | .screen input => [input]

/-- Makes the node. -/
def run : Construction → PlanM Plan
  | .scan table schema => Plan.scan table schema
  | .values schema rows => Plan.values schema rows
  | .filter input predicate => input.filter predicate
  | .project input exprs names => input.project exprs names
  | .projectAllowingDuplicates input exprs names => input.projectAllowingDuplicates exprs names
  | .join algorithm spec left right => Plan.joinWith algorithm spec left right
  | .aggregate input groupBy aggregates => input.aggregate groupBy aggregates
  | .sort input order => input.sort order
  | .limit input offset count => input.limit offset count
  | .exchange input distribution => input.exchange distribution
  | .writer input target => input.writer target
  | .screen input => input.screen

/-- The node is new, stands over the inputs it was asked for, and fits them. -/
structure Makes (c : Construction) (s : NodeSupply) (p : Plan) (s' : NodeSupply) : Prop where
  id_eq : p.id = ⟨s.next⟩
  inputs_eq : p.inputs = c.inputs
  supply_eq : s' = s.rest
  rowFits : p.RowFits
  traitsFit : p.TraitsFit

theorem makes_projectWith {allowDuplicates : Bool} {input p : Plan} {exprs : List Expr}
    {names : List String} {s s' : NodeSupply}
    (h : (input.projectWith allowDuplicates exprs names).run s = .ok (p, s')) :
    p.id = ⟨s.next⟩ ∧ p.inputs = [input] ∧ s' = s.rest ∧ p.RowFits ∧ p.TraitsFit := by
  obtain ⟨hordinals, hnames, hlength, rfl, rfl⟩ := Plan.run_projectWith_eq_ok_iff.1 h
  have hlength' : names.length = (exprs.map Expr.type).length := by
    rw [List.length_map, hlength]
  refine ⟨rfl, rfl, rfl, ⟨hordinals, Schema.types_ofNamesTypes hlength', ?_⟩, rfl⟩
  rwa [NodeSupply.schema_header, Schema.names_ofNamesTypes hlength']

theorem makes_of_run {c : Construction} {p : Plan} {s s' : NodeSupply}
    (h : c.run.run s = .ok (p, s')) : c.Makes s p s' := by
  cases c with
  | scan table schema =>
      obtain ⟨rfl, rfl⟩ := Plan.run_newSource_eq_ok_iff.1 h
      exact ⟨rfl, rfl, rfl, trivial, rfl⟩
  | values schema rows =>
      obtain ⟨rfl, rfl⟩ := Plan.run_newSource_eq_ok_iff.1 h
      exact ⟨rfl, rfl, rfl, trivial, rfl⟩
  | filter input predicate =>
      obtain ⟨hordinals, rfl, rfl⟩ := Plan.run_filter_eq_ok_iff.1 h
      exact ⟨rfl, rfl, rfl, ⟨hordinals, rfl⟩, rfl⟩
  | project input exprs names =>
      obtain ⟨hid, hinputs, hs, hrow, htraits⟩ := makes_projectWith h
      exact ⟨hid, hinputs, hs, hrow, htraits⟩
  | projectAllowingDuplicates input exprs names =>
      obtain ⟨hid, hinputs, hs, hrow, htraits⟩ := makes_projectWith h
      exact ⟨hid, hinputs, hs, hrow, htraits⟩
  | join algorithm spec left right =>
      obtain ⟨hordinals, hkeys, rfl, rfl⟩ := Plan.run_joinWith_eq_ok_iff.1 h
      exact ⟨rfl, rfl, rfl, ⟨⟨hordinals, hkeys, rfl⟩, rfl⟩, rfl⟩
  | aggregate input groupBy aggregates =>
      obtain ⟨hgroup, hargs, rfl, rfl⟩ := Plan.run_aggregate_eq_ok_iff.1 h
      exact ⟨rfl, rfl, rfl, ⟨hgroup, hargs, rfl⟩, rfl⟩
  | sort input order =>
      obtain ⟨hordinals, rfl, rfl⟩ := Plan.run_sort_eq_ok_iff.1 h
      exact ⟨rfl, rfl, rfl, ⟨hordinals, rfl⟩, rfl⟩
  | limit input offset count =>
      obtain ⟨rfl, rfl⟩ := Plan.run_newTransform_eq_ok_iff.1 h
      exact ⟨rfl, rfl, rfl, rfl, rfl⟩
  | exchange input distribution =>
      obtain ⟨rfl, rfl⟩ := Plan.run_newTransform_eq_ok_iff.1 h
      exact ⟨rfl, rfl, rfl, rfl, rfl⟩
  | writer input target =>
      obtain ⟨rfl, rfl⟩ := Plan.run_newTransform_eq_ok_iff.1 h
      exact ⟨rfl, rfl, rfl, rfl, rfl⟩
  | screen input =>
      obtain ⟨rfl, rfl⟩ := Plan.run_newTransform_eq_ok_iff.1 h
      exact ⟨rfl, rfl, rfl, rfl, rfl⟩

end Construction

/-- The nodes that constructions have made so far, the latest one first, and the identities
that are left. -/
inductive Built : List Plan → NodeSupply → Prop where
  | start (s : NodeSupply) : Built [] s
  /-- A construction over nodes that are there. -/
  | make {nodes : List Plan} {s s' : NodeSupply} {p : Plan} (c : Construction) :
    Built nodes s → (∀ i ∈ c.inputs, i ∈ nodes) → c.run.run s = .ok (p, s') →
      Built (p :: nodes) s'
  /-- Identities go to other nodes. -/
  | skip {nodes : List Plan} {s s' : NodeSupply} :
    Built nodes s → s.next ≤ s'.next → Built nodes s'

/-- A table is scanned, which nothing can go wrong with. -/
theorem Built.scan {nodes : List Plan} {s : NodeSupply} (h : Built nodes s) (table : Table)
    (row : Schema) : Built (.source (s.header row .unknown) (.scan table) :: nodes) s.rest :=
  .make (.scan table row) h nofun rfl

/-- A construction over the latest node alone. -/
theorem Built.over {nodes : List Plan} {s s' : NodeSupply} {input p : Plan}
    (h : Built (input :: nodes) s) (c : Construction) (hinputs : c.inputs = [input])
    (hrun : c.run.run s = .ok (p, s')) : Built (p :: input :: nodes) s' :=
  .make c h (by simp [hinputs]) hrun

/-- A join of two nodes that are there. -/
theorem Built.join {nodes : List Plan} {s s' : NodeSupply} {algorithm : JoinAlgorithm}
    {spec : JoinSpec} {left right p : Plan} (h : Built nodes s) (hleft : left ∈ nodes)
    (hright : right ∈ nodes)
    (hrun : (Plan.joinWith algorithm spec left right).run s = .ok (p, s')) :
    Built (p :: nodes) s' :=
  .make (.join algorithm spec left right) h
    (List.forall_mem_cons.2 ⟨hleft, List.forall_mem_singleton.2 hright⟩) hrun

theorem Built.exists_register {nodes : List Plan} {s : NodeSupply} (h : Built nodes s) :
    ∃ R : Register, R.nodes = nodes ∧ R.supply = s := by
  induction h with
  | start s => exact ⟨.empty s, rfl, rfl⟩
  | make c _ hinputs hrun ih =>
      obtain ⟨R, rfl, rfl⟩ := ih
      have hmakes := Construction.makes_of_run hrun
      exact ⟨R.add _ hmakes.id_eq (hmakes.inputs_eq ▸ hinputs), rfl, hmakes.supply_eq.symm⟩
  | skip _ hle ih =>
      obtain ⟨R, rfl, rfl⟩ := ih
      exact ⟨R.skip _ hle, rfl, rfl⟩

theorem Built.fits {nodes : List Plan} {s : NodeSupply} (h : Built nodes s) :
    ∀ p ∈ nodes, p.RowFits ∧ p.TraitsFit := by
  induction h with
  | start s => simp
  | make c _ _ hrun ih =>
      have hmakes := Construction.makes_of_run hrun
      exact List.forall_mem_cons.2 ⟨⟨hmakes.rowFits, hmakes.traitsFit⟩, ih⟩
  | skip _ _ ih => exact ih

/-- Every node of the plan was made by the function for its operator, and `s` are the
identities that are left. -/
def Plan.Constructed (s : NodeSupply) (p : Plan) : Prop := ∃ nodes, Built nodes s ∧ p ∈ nodes

namespace Plan.Constructed

variable {s : NodeSupply} {p : Plan}

theorem exists_register (h : p.Constructed s) :
    ∃ R : Register, R.supply = s ∧ p ∈ R.nodes := by
  obtain ⟨nodes, hbuilt, hp⟩ := h
  obtain ⟨R, rfl, hs⟩ := hbuilt.exists_register
  exact ⟨R, hs, hp⟩

/-- The plan is one of some nodes that can be told by their identities, and the inputs of these are
among them. -/
theorem exists_nodes (h : p.Constructed s) :
    ∃ nodes : Set Plan, p ∈ nodes ∧ nodes.InjOn Plan.id ∧
      ∀ n ∈ nodes, ∀ i ∈ n.inputs, i ∈ nodes := by
  obtain ⟨R, -, hp⟩ := h.exists_register
  exact ⟨{n | n ∈ R.nodes}, hp, fun n hn m hm => R.eq_of_id_eq n hn m hm, R.input_mem⟩

theorem everywhere (h : p.Constructed s) :
    p.Everywhere fun n => n.RowFits ∧ n.TraitsFit := by
  obtain ⟨nodes, hbuilt, hp⟩ := h
  obtain ⟨R, rfl, -⟩ := hbuilt.exists_register
  exact fun n hn => hbuilt.fits n (R.preorder_subset hp hn)

theorem id_lt (h : p.Constructed s) : ∀ n ∈ p.preorder, n.id.index < s.next := by
  obtain ⟨R, rfl, hp⟩ := h.exists_register
  exact fun n hn => R.id_lt n (R.preorder_subset hp hn)

theorem wellFormed (h : p.Constructed s) : p.WellFormed :=
  fun n hn => (h.everywhere n hn).1

theorem traitsFit (h : p.Constructed s) : p.Everywhere TraitsFit :=
  fun n hn => (h.everywhere n hn).2

end Plan.Constructed

/-! The star columns of two tables, joined and shown in the other order. -/

namespace SwappedStars

def row : Schema := ⟨[⟨"**", .utf8⟩]⟩

def joinedRow : Schema := ⟨[⟨"**", .utf8⟩, ⟨"**0", .utf8⟩]⟩

def shownRow : Schema := ⟨[⟨"x", .utf8⟩, ⟨"y", .utf8⟩]⟩

def table (i : Nat) (name : String) : Plan :=
  .source ⟨⟨i⟩, row, .unknown⟩ (.scan ⟨"db", name⟩)

def onTrue : JoinSpec := ⟨.inner, .literal (.bool true), [], none⟩

def joined : Plan :=
  .join ⟨⟨2⟩, joinedRow, .unknown⟩ .nestedLoop onTrue (table 0 "a") (table 1 "b")

def swap : List Expr := [.row ⟨1, .utf8⟩, .row ⟨0, .utf8⟩]

def swapped : Plan := .transform ⟨⟨3⟩, shownRow, .unknown⟩ (.project swap false) joined

def shown : Plan := .transform ⟨⟨4⟩, shownRow, .distributed .single⟩ .screen swapped

theorem built_tables (first second : String) : Built [table 1 second, table 0 first] ⟨2⟩ :=
  ((Built.start ⟨0⟩).scan ⟨"db", first⟩ row).scan ⟨"db", second⟩ row

theorem run_joinWith_tables (i j k : Nat) (first second : String) :
    (Plan.joinWith .nestedLoop onTrue (table i first) (table j second)).run ⟨k⟩ =
      .ok (.join ⟨⟨k⟩, joinedRow, .unknown⟩ .nestedLoop onTrue (table i first) (table j second),
        ⟨k + 1⟩) := by
  have hrow : Schema.join row row .inner = joinedRow := by decide +kernel
  exact Plan.run_joinWith_of_join_eq (by simp [onTrue, Expr.ordinals]) (by simp [onTrue]) hrow

theorem run_project_swapped : (joined.project swap ["x", "y"]).run ⟨3⟩ = .ok (swapped, ⟨4⟩) :=
  Plan.run_projectWith_eq_ok_iff.2 ⟨by decide, fun _ => by decide +kernel, rfl, rfl, rfl⟩

theorem constructed_shown : shown.Constructed ⟨5⟩ := by
  have hjoined : Built [joined, table 1 "b", table 0 "a"] ⟨3⟩ :=
    (built_tables "a" "b").join (by simp) (by simp) (run_joinWith_tables 0 1 2 "a" "b")
  have hswapped : Built [swapped, joined, table 1 "b", table 0 "a"] ⟨4⟩ :=
    hjoined.over (.project joined swap ["x", "y"]) rfl run_project_swapped
  have hshown : Built [shown, swapped, joined, table 1 "b", table 0 "a"] ⟨5⟩ :=
    hswapped.over (.screen swapped) rfl rfl
  exact ⟨_, hshown, List.mem_cons_self⟩

end SwappedStars

end QueryPlan
