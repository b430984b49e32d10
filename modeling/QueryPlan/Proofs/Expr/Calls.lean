import QueryPlan.Proofs.Expr.References
import QueryPlan.Proofs.StatefulRun

/-!
# Which calls a replacement makes

The replacement of a reference may depend on what was replaced before, and it may fail. It is a
callback on a state, and how often and in which order it is called makes a difference. It is
called on the references from left to right, once for each place, and the first call that fails
is the last one.

The calls are made visible by a callback that writes them down. It answers as the callback
itself does, so that what holds of the record holds of any callback.
-/

namespace QueryPlan

namespace Expr

variable {σ ε : Type}

/-- The call of `f` on a reference, written down with its answer behind the calls before it. -/
def recording (f : RowRef → ExceptT ε (StateM σ) Expr) (r : RowRef) :
    ExceptT ε (StateM (List (RowRef × Except ε Expr) × σ)) Expr := fun before =>
  let (answer, s) := (f r).run.run before.2
  (answer, before.1 ++ [(r, answer)], s)

/-- The calls of `f` on the references of a list in order, from one state to another. Each call
finds the state that the one before it has left, and the first one that fails is the last. -/
inductive Calls (f : RowRef → ExceptT ε (StateM σ) Expr) :
    List RowRef → σ → List (RowRef × Except ε Expr) → σ → Prop where
  | nil {s : σ} : Calls f [] s [] s
  | answered {r : RowRef} {rs : List RowRef} {s t u : σ} {value : Expr}
      {calls : List (RowRef × Except ε Expr)} :
    (f r).run.run s = (.ok value, t) → Calls f rs t calls u →
    Calls f (r :: rs) s ((r, .ok value) :: calls) u
  | failed {r : RowRef} {rs : List RowRef} {s t : σ} {e : ε} :
    (f r).run.run s = (.error e, t) → Calls f (r :: rs) s [(r, .error e)] t

/-- What the calls have brought: the answers beside the references, or the first failure. -/
def outcomeOf (calls : List (RowRef × Except ε Expr)) : Except ε (List (RowRef × Expr)) :=
  calls.mapM fun c => (c.1, ·) <$> c.2

variable {f : RowRef → ExceptT ε (StateM σ) Expr} {rs : List RowRef} {s t : σ}
  {calls : List (RowRef × Except ε Expr)} {as : List (RowRef × Expr)}

theorem outcomeOf_answered (r : RowRef) (value : Expr) :
    outcomeOf ((r, .ok value) :: calls) = (outcomeOf calls).map ((r, value) :: ·) := by
  rw [outcomeOf, List.mapM_cons, ← outcomeOf]
  cases outcomeOf calls <;> rfl

theorem eq_map_of_outcomeOf (h : outcomeOf calls = .ok as) :
    calls = as.map fun a => (a.1, .ok a.2) := by
  induction calls generalizing as with
  | nil =>
      cases h
      rfl
  | cons c calls ih =>
      obtain ⟨r, _ | value⟩ := c
      · cases h
      · rw [outcomeOf_answered] at h
        cases hrest : outcomeOf calls with
        | error e =>
            rw [hrest] at h
            cases h
        | ok bs =>
            rw [hrest] at h
            cases h
            rw [ih hrest]
            rfl

theorem Calls.map_fst_prefix (h : Calls f rs s calls t) : calls.map Prod.fst <+: rs := by
  induction h with
  | nil => exact List.prefix_rfl
  | answered _ _ ih => exact (List.prefix_cons_inj _).2 ih
  | failed => exact (List.prefix_cons_inj _).2 List.nil_prefix

/-- Behind a call that fails there is no other. -/
theorem Calls.eq_nil_of_error (h : Calls f rs s calls t)
    {before after : List (RowRef × Except ε Expr)} {r : RowRef} {e : ε}
    (hcalls : calls = before ++ (r, .error e) :: after) : after = [] := by
  induction h generalizing before with
  | nil => simp at hcalls
  | answered _ _ ih =>
      cases before with
      | nil => cases hcalls
      | cons => exact ih (List.cons.inj hcalls).2
  | failed =>
      cases before with
      | nil => exact (List.cons.inj hcalls).2.symm
      | cons => simp at hcalls

theorem Calls.outcomeOf_eq_error_iff (h : Calls f rs s calls t) {e : ε} :
    outcomeOf calls = .error e ↔ ∃ r, (r, .error e) ∈ calls := by
  induction h with
  | nil => exact iff_of_false nofun (by simp)
  | @answered r _ _ _ _ value calls _ _ ih =>
      have hrest : outcomeOf ((r, .ok value) :: calls) = .error e ↔
          outcomeOf calls = .error e := by
        rw [outcomeOf_answered]
        cases outcomeOf calls with
        | error _ => exact Iff.rfl
        | ok _ => exact iff_of_false nofun nofun
      rw [hrest, ih]
      simp
  | @failed r _ _ _ e' _ =>
      have hfirst : outcomeOf [(r, .error e')] = .error e' := rfl
      rw [hfirst]
      simp [eq_comm]

/-- The references of a list are called on in order, and writing the calls down changes neither
the outcome nor the state. -/
theorem exists_calls (f : RowRef → ExceptT ε (StateM σ) Expr) (rs : List RowRef) (s : σ) :
    ∃ calls t, Calls f rs s calls t ∧ (replaceEach f rs).run.run s = (outcomeOf calls, t) ∧
      ∀ before, (replaceEach (recording f) rs).run.run (before, s) =
        (outcomeOf calls, before ++ calls, t) := by
  induction rs generalizing s with
  | nil =>
      refine ⟨[], s, .nil, rfl, fun before => ?_⟩
      rw [List.append_nil]
      rfl
  | cons r rs ih =>
      rcases hcall : (f r).run.run s with ⟨answer, t⟩
      have hrecorded : ∀ before, (recording f r).run.run (before, s) =
          (answer, before ++ [(r, answer)], t) := fun before => by
        change (let (answer, s) := (f r).run.run s; (answer, before ++ [(r, answer)], s)) = _
        rw [hcall]
      cases answer with
      | error e =>
          refine ⟨[(r, .error e)], t, .failed hcall, ?_, fun before => ?_⟩
          · rw [replaceEach_cons, run_bind_of_error hcall]
            rfl
          · rw [replaceEach_cons, run_bind_of_error (hrecorded before)]
            rfl
      | ok value =>
          obtain ⟨calls, u, hcalls, hrun, hrecord⟩ := ih t
          refine ⟨(r, .ok value) :: calls, u, .answered hcall hcalls, ?_, fun before => ?_⟩
          · rw [replaceEach_cons, run_bind_of_ok hcall, bind_pure_comp, run_map, hrun,
              outcomeOf_answered]
            rfl
          · rw [replaceEach_cons, run_bind_of_ok (hrecorded before), bind_pure_comp, run_map,
              hrecord, outcomeOf_answered, List.append_assoc]
            rfl

/-- What is brought together for the references of an expression is put in their places. -/
theorem exists_run_mapRefs {e : Expr} {brought : Except ε (List (RowRef × Expr))}
    (h : (replaceEach f e.refs).run.run s = (brought, t)) :
    ∃ outcome, (e.mapRefs f).run.run s = (outcome, t) ∧ FilledWith e brought outcome := by
  obtain ⟨x, hx, hx'⟩ := exists_filling f e
  rw [← hx, run_map] at h
  cases h
  exact ⟨(x.run.run s).1.map Filling.result, by rw [← hx', run_map]; rfl, .of_filling _⟩

/-- The callback is called on the references of an expression in their order, once for each, as
long as no call fails. If one fails, it is the last one and the whole fails in the same way.
Otherwise the answers stand in the places of the references, and everything else is kept. -/
theorem run_mapRefs_calls (e : Expr) (f : RowRef → ExceptT ε (StateM σ) Expr) (s : σ) :
    e.refs.map RowRef.ordinal = e.ordinals ∧ ∃ calls outcome t,
      (e.mapRefs (recording f)).run.run ([], s) = (outcome, calls, t) ∧
      (e.mapRefs f).run.run s = (outcome, t) ∧
      Calls f e.refs s calls t ∧
      calls.map Prod.fst <+: e.refs ∧
      (∀ before r error after, calls = before ++ (r, .error error) :: after → after = []) ∧
      (∀ error, outcome = .error error ↔ ∃ r, (r, .error error) ∈ calls) ∧
      ∀ e', outcome = .ok e' → ∃ as : List (RowRef × Expr),
        calls = as.map (fun a => (a.1, .ok a.2)) ∧ as.map Prod.fst = e.refs ∧ Filled e as e' ∧
          e'.ordinals = as.flatMap (fun a => a.2.ordinals) ∧
          ((∀ a ∈ as, a.2.type = a.1.type) → e'.type = e.type) := by
  obtain ⟨calls, t, hcalls, hrun, hrecord⟩ := exists_calls f e.refs s
  obtain ⟨outcome, hmap, hfilled⟩ := exists_run_mapRefs hrun
  obtain ⟨outcome', hmap', hfilled'⟩ := exists_run_mapRefs (hrecord [])
  cases hfilled.unique hfilled'
  refine ⟨map_ordinal_refs e, calls, outcome, t, hmap', hmap, hcalls, hcalls.map_fst_prefix,
    fun before r error after heq => hcalls.eq_nil_of_error heq, fun error => ?_, ?_⟩
  · rw [hfilled.eq_error_iff, hcalls.outcomeOf_eq_error_iff]
  · rintro e' rfl
    obtain ⟨as, houtcome, hfilled⟩ := hfilled.exists_filled
    exact ⟨as, eq_map_of_outcomeOf houtcome, hfilled.map_fst, hfilled, hfilled.ordinals_eq,
      hfilled.type_eq⟩

end Expr

end QueryPlan
