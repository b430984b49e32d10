import QueryPlan.Plan.Traversal
import QueryPlan.Settings

/-!
# Passes

A pass works on a finished plan as a whole, after the operators have been chosen and
before the plan is executed. Passes run one after the other, each on what the one before
has returned. The settings may switch a pass off. A pass with nothing to do returns the
plan it was given, so a change shows in the identity of the root.

A run is recorded: which passes were off, and which have finished and changed the plan. The
first pass that fails ends the run; what was recorded until then stays.
-/

namespace QueryPlan

/-- A pass over a whole plan. -/
structure Pass where
  name : String
  /-- Whether the settings let the pass run. -/
  enabled : Settings → Bool
  run : Settings → Plan → PlanM Plan

/-- What is recorded about one pass of a run. -/
inductive PassEvent where
  | disabled (pass : String)
  | finished (pass : String) (changed : Bool)
  deriving DecidableEq

/-- A run of several passes: the record, and the resulting plan with the identities that
are left, or the failure. -/
structure PassRun where
  events : List PassEvent
  outcome : Except PlanError (Plan × NodeSupply)

/-- The run with an event recorded in front of it. -/
def PassRun.after (event : PassEvent) (run : PassRun) : PassRun :=
  { run with events := event :: run.events }

/-- Runs the passes in order. -/
def Pass.runAll (settings : Settings) : List Pass → Plan → NodeSupply → PassRun
  | [], plan, supply => ⟨[], .ok (plan, supply)⟩
  | pass :: rest, plan, supply =>
    if pass.enabled settings then
      match (pass.run settings plan).run supply with
      | .error e => ⟨[], .error e⟩
      | .ok (plan', supply') =>
        (runAll settings rest plan' supply').after
          (.finished pass.name (plan'.id != plan.id))
    else (runAll settings rest plan supply).after (.disabled pass.name)

end QueryPlan
