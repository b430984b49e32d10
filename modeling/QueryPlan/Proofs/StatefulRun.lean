/-!
# Running a computation on a state that may fail

What a computation has done to the state stays when it fails, and what would have come after it is
left out.
-/

namespace QueryPlan

variable {α β σ ε : Type} {x : ExceptT ε (StateM σ) α} {k : α → ExceptT ε (StateM σ) β} {s t : σ}

theorem run_bind_of_ok {a : α} (h : x.run.run s = (.ok a, t)) :
    (x >>= k).run.run s = (k a).run.run t := by
  rw [ExceptT.run_bind, StateT.run_bind, h]
  rfl

theorem run_bind_of_error {e : ε} (h : x.run.run s = (.error e, t)) :
    (x >>= k).run.run s = (.error e, t) := by
  rw [ExceptT.run_bind, StateT.run_bind, h]
  rfl

theorem run_map (g : α → β) : (g <$> x).run.run s = Prod.map (Except.map g) id (x.run.run s) := by
  rw [map_eq_pure_bind]
  rcases h : x.run.run s with ⟨_ | a, t⟩
  · exact run_bind_of_error h
  · exact run_bind_of_ok h

end QueryPlan
