/-!
# Planner settings

What can be switched on and off when a plan is finished.
-/

namespace QueryPlan

/-- The switches of the planner, with the values they have if nothing is said. -/
structure Settings where
  /-- Resolve the references of extra join conditions to the two inputs. -/
  vectorizeExtraJoinCondition : Bool := true
  /-- Run the pass that tells star columns apart. -/
  renameStarColumns : Bool := true
  /-- Run the pass that gives join inputs the names the join yields. -/
  renameJoinInputs : Bool := true
  /-- Show every dispatch table when a session first uses it. -/
  logDispatchTables : Bool := false
  deriving DecidableEq

/-- One of the switches. -/
inductive Switch where
  | vectorizeExtraJoinCondition
  | renameStarColumns
  | renameJoinInputs
  | logDispatchTables
  deriving DecidableEq

namespace Switch

/-- The switches in the order in which they are written down. -/
def all : List Switch :=
  [.vectorizeExtraJoinCondition, .renameStarColumns, .renameJoinInputs, .logDispatchTables]

/-- The key under which a switch is written down. -/
def key : Switch → String
  | .vectorizeExtraJoinCondition => "vectorize_extra_join_condition"
  | .renameStarColumns => "rename_star_columns"
  | .renameJoinInputs => "rename_join_inputs"
  | .logDispatchTables => "log_dispatch_tables"

end Switch

namespace Settings

/-- The position of a switch. -/
def get (s : Settings) : Switch → Bool
  | .vectorizeExtraJoinCondition => s.vectorizeExtraJoinCondition
  | .renameStarColumns => s.renameStarColumns
  | .renameJoinInputs => s.renameJoinInputs
  | .logDispatchTables => s.logDispatchTables

/-- The settings with one switch moved. -/
def set (s : Settings) (switch : Switch) (on : Bool) : Settings :=
  match switch with
  | .vectorizeExtraJoinCondition => { s with vectorizeExtraJoinCondition := on }
  | .renameStarColumns => { s with renameStarColumns := on }
  | .renameJoinInputs => { s with renameJoinInputs := on }
  | .logDispatchTables => { s with logDispatchTables := on }

@[simp] theorem get_set (s : Settings) (a b : Switch) (on : Bool) :
    (s.set a on).get b = if a = b then on else s.get b := by
  cases a <;> cases b <;> rfl

theorem ext_get {s t : Settings} (h : ∀ a, s.get a = t.get a) : s = t := by
  cases s
  cases t
  have h₁ := h .vectorizeExtraJoinCondition
  have h₂ := h .renameStarColumns
  have h₃ := h .renameJoinInputs
  have h₄ := h .logDispatchTables
  simp_all [get]

end Settings

end QueryPlan
