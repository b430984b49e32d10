import QueryPlan.Proofs.Expr.References
import QueryPlan.Proofs.MapM

/-!
# Replacing references is a substitution

Where a replacement neither fails nor has an effect, putting it in is a substitution. Replacing
the references of what comes out, in whatever way, is then the same as replacing those of the
replacements while they are put in: nothing has happened in the meantime that could make a
difference.

A replacement that may fail is of this kind on every expression on which it does not fail. So two
replacements one after the other succeed just if the composed one does, and they give the same
expression. They do not fail alike: where the first replacement is put in everywhere before the
second one is begun, it also fails before.
-/

namespace QueryPlan

namespace Expr

mutual
/-- The expression with `v r` in the place of every reference `r` to the row. -/
def substitute (v : RowRef → Expr) : Expr → Expr
  | .row r => v r
  | .side c => .side c
  | .literal value => .literal value
  | .binary op left right => .binary op (left.substitute v) (right.substitute v)
  | .unary op operand => .unary op (operand.substitute v)
  | .call function args result => .call function (substituteAll v args) result
  | .and es => .and (substituteAll v es)
  | .or es => .or (substituteAll v es)
/-- The members with `v r` in the place of every reference `r` to the row. -/
def substituteAll (v : RowRef → Expr) : List Expr → List Expr
  | [] => []
  | e :: es => e.substitute v :: substituteAll v es
end

mutual
/-- A reference is put in its own place. -/
theorem substitute_row : ∀ e : Expr, e.substitute .row = e
  | .row _ | .side _ | .literal _ => rfl
  | .binary _ left right => by rw [substitute, substitute_row left, substitute_row right]
  | .unary _ operand => by rw [substitute, substitute_row operand]
  | .call _ args _ => by rw [substitute, substituteAll_row args]
  | .and es | .or es => by rw [substitute, substituteAll_row es]
theorem substituteAll_row : ∀ es : List Expr, substituteAll .row es = es
  | [] => rfl
  | e :: es => by rw [substituteAll, substitute_row e, substituteAll_row es]
end

section Monadic

variable {m : Type → Type} [Monad m]

mutual
/-- A replacement without effects is put in without effects. -/
theorem mapRefs_pure [LawfulMonad m] (v : RowRef → Expr) : ∀ e : Expr,
    e.mapRefs (fun r => (pure (v r) : m Expr)) = pure (e.substitute v)
  | .row _ | .side _ | .literal _ => by simp only [mapRefs, substitute]
  | .binary _ left right => by
      simp only [mapRefs, substitute, mapRefs_pure v left, mapRefs_pure v right, pure_bind]
  | .unary _ operand => by simp only [mapRefs, substitute, mapRefs_pure v operand, pure_bind]
  | .call _ args _ => by simp only [mapRefs, substitute, mapRefsInAll_pure v args, pure_bind]
  | .and es | .or es => by simp only [mapRefs, substitute, mapRefsInAll_pure v es, pure_bind]
theorem mapRefsInAll_pure [LawfulMonad m] (v : RowRef → Expr) : ∀ es : List Expr,
    mapRefsInAll (fun r => (pure (v r) : m Expr)) es = pure (substituteAll v es)
  | [] => by simp only [mapRefsInAll, substituteAll]
  | e :: es => by
      simp only [mapRefsInAll, substituteAll, mapRefs_pure v e, mapRefsInAll_pure v es, pure_bind]
end

mutual
/-- The references that a substitution has brought may be replaced before it is made. -/
theorem mapRefs_substitute (v : RowRef → Expr) (g : RowRef → m Expr) : ∀ e : Expr,
    (e.substitute v).mapRefs g = e.mapRefs fun r => (v r).mapRefs g
  | .row _ | .side _ | .literal _ => by simp only [substitute, mapRefs]
  | .binary _ left right => by
      simp only [substitute, mapRefs, mapRefs_substitute v g left, mapRefs_substitute v g right]
  | .unary _ operand => by simp only [substitute, mapRefs, mapRefs_substitute v g operand]
  | .call _ args _ => by simp only [substitute, mapRefs, mapRefsInAll_substituteAll v g args]
  | .and es | .or es => by simp only [substitute, mapRefs, mapRefsInAll_substituteAll v g es]
theorem mapRefsInAll_substituteAll (v : RowRef → Expr) (g : RowRef → m Expr) :
    ∀ es : List Expr,
      mapRefsInAll g (substituteAll v es) = mapRefsInAll (fun r => (v r).mapRefs g) es
  | [] => by simp only [substituteAll, mapRefsInAll]
  | e :: es => by
      simp only [substituteAll, mapRefsInAll, mapRefs_substitute v g e,
        mapRefsInAll_substituteAll v g es]
end

end Monadic

section Except

variable {ε : Type} {e : Expr} {f f' g : RowRef → Except ε Expr}

theorem exists_eq_ok_of_bind {α β : Type} {x : Except ε α} {k : α → Except ε β} {b : β}
    (h : (x >>= k) = .ok b) : ∃ a, x = .ok a := by
  cases x with
  | error error => cases h
  | ok a => exact ⟨a, rfl⟩

/-- What is made of other references than those of the expression does not matter. -/
theorem mapRefs_congr (h : ∀ r ∈ e.refs, f r = f' r) : e.mapRefs f = e.mapRefs f' := by
  have hbrought : replaceEach f e.refs = replaceEach f' e.refs :=
    mapM_congr_of_mem fun r hr => by rw [h r hr]
  have hfilled := filledWith_mapRefs f e
  rw [hbrought] at hfilled
  exact hfilled.unique (filledWith_mapRefs f' e)

theorem exists_mapRefs_eq_ok_iff :
    (∃ e', e.mapRefs f = .ok e') ↔ ∀ r ∈ e.refs, ∃ value, f r = .ok value := by
  rw [(filledWith_mapRefs f e).exists_eq_ok_iff, replaceEach, exists_mapM_eq_ok_iff]
  refine forall₂_congr fun r _ => ?_
  cases f r with
  | error error => exact iff_of_false nofun nofun
  | ok value => exact iff_of_true ⟨_, rfl⟩ ⟨_, rfl⟩

/-- Where the first replacement does not fail, two replacements are the composed one, and so are
their failures. -/
theorem mapRefs_bind_of_ok (h : ∀ r ∈ e.refs, ∃ value, f r = .ok value) :
    (e.mapRefs f >>= mapRefs g) = e.mapRefs fun r => f r >>= mapRefs g := by
  let v : RowRef → Expr := fun r => (f r).toOption.getD (.row r)
  have hv : ∀ r ∈ e.refs, f r = pure (v r) := by
    intro r hr
    obtain ⟨value, hvalue⟩ := h r hr
    simp only [v, hvalue]
    rfl
  calc (e.mapRefs f >>= mapRefs g)
      = pure (e.substitute v) >>= mapRefs g := by rw [mapRefs_congr hv, mapRefs_pure]
    _ = e.mapRefs fun r => (v r).mapRefs g := by rw [pure_bind, mapRefs_substitute]
    _ = e.mapRefs fun r => f r >>= mapRefs g :=
      mapRefs_congr fun r hr => by rw [hv r hr, pure_bind]

/-- Two replacements one after the other succeed just if the composed one does. -/
theorem mapRefs_bind_eq_ok_iff {e' : Expr} : (e.mapRefs f >>= mapRefs g) = .ok e' ↔
    e.mapRefs (fun r => f r >>= mapRefs g) = .ok e' := by
  by_cases hf : ∀ r ∈ e.refs, ∃ value, f r = .ok value
  · rw [mapRefs_bind_of_ok hf]
  · -- On a reference on which the first replacement fails the composed one fails, too.
    refine iff_of_false (fun h => hf ?_) fun h => hf fun r hr => ?_
    · exact exists_mapRefs_eq_ok_iff.1 (exists_eq_ok_of_bind h)
    · obtain ⟨value, hvalue⟩ := exists_mapRefs_eq_ok_iff.1 ⟨e', h⟩ r hr
      exact exists_eq_ok_of_bind hvalue

/-- Replacing references is a lawful substitution. A reference becomes what the replacement makes
of it, and if this is the reference itself, every expression stays as it is. Two replacements one
after the other succeed just if the composed one does, and with the same result. If the first one
does not fail, they fail alike, too. -/
theorem mapRefs_laws (e : Expr) (f g : RowRef → Except ε Expr) :
    (∀ r, (Expr.row r).mapRefs f = f r) ∧
      e.mapRefs (fun r => (.ok (.row r) : Except ε Expr)) = .ok e ∧
      (∀ e', (e.mapRefs f >>= mapRefs g) = .ok e' ↔
        e.mapRefs (fun r => f r >>= mapRefs g) = .ok e') ∧
      ((∀ r ∈ e.refs, ∃ value, f r = .ok value) →
        (e.mapRefs f >>= mapRefs g) = e.mapRefs fun r => f r >>= mapRefs g) := by
  refine ⟨fun r => by rw [mapRefs], ?_, fun e' => mapRefs_bind_eq_ok_iff, mapRefs_bind_of_ok⟩
  exact (mapRefs_pure .row e).trans (congrArg pure (substitute_row e))

/-- A replacement that fails on the second reference, before one that fails on the first. -/
example :
    let e : Expr := .binary .add (.row ⟨0, .int64⟩) (.row ⟨1, .int64⟩)
    let f : RowRef → Except String Expr :=
      fun r => if r.ordinal = 1 then .error "first" else .ok (.row r)
    let g : RowRef → Except String Expr := fun _ => .error "second"
    (e.mapRefs f >>= mapRefs g) = .error "first" ∧
      e.mapRefs (fun r => f r >>= mapRefs g) = .error "second" :=
  ⟨rfl, rfl⟩

end Except

end Expr

end QueryPlan
