import QueryPlan.Expr.Substitution

/-!
# The references of an expression

An expression refers to the row it is evaluated on at certain places. To replace the references
is to put an expression at each of these places, and to leave everything around them as it is.
`Filled e as e'` says that `e'` is made of `e` in this way, where `as` has the references in the
order of `Expr.ordinals`, and beside each of them what stands in its place now.

In whatever way the replacements are come by, `mapRefs` asks for them from left to right and then
puts them in. So it is a walk along the list of the references, with a filling at its end.
-/

namespace QueryPlan

namespace Expr

mutual
/-- All references to the row from left to right, repetitions kept. -/
def refs : Expr → List RowRef
  | .row r => [r]
  | .side _ | .literal _ => []
  | .binary _ left right => left.refs ++ right.refs
  | .unary _ operand => operand.refs
  | .call _ args _ => refsOfAll args
  | .and es | .or es => refsOfAll es
/-- The references of every member in order. -/
def refsOfAll : List Expr → List RowRef
  | [] => []
  | e :: es => e.refs ++ refsOfAll es
end

mutual
/-- The second expression is the first one with its references replaced: from left to right, by
the expressions that stand beside them in the list. -/
inductive Filled : Expr → List (RowRef × Expr) → Expr → Prop where
  | row {r : RowRef} {value : Expr} : Filled (.row r) [(r, value)] value
  | side {c : SideRef} : Filled (.side c) [] (.side c)
  | literal {v : Scalar} : Filled (.literal v) [] (.literal v)
  | binary {op : BinaryOp} {left left' right right' : Expr} {as bs : List (RowRef × Expr)} :
    Filled left as left' → Filled right bs right' →
    Filled (.binary op left right) (as ++ bs) (.binary op left' right')
  | unary {op : UnaryOp} {operand operand' : Expr} {as : List (RowRef × Expr)} :
    Filled operand as operand' → Filled (.unary op operand) as (.unary op operand')
  | call {function : String} {args args' : List Expr} {result : DataType}
      {as : List (RowRef × Expr)} :
    FilledAll args as args' → Filled (.call function args result) as (.call function args' result)
  | and {es es' : List Expr} {as : List (RowRef × Expr)} :
    FilledAll es as es' → Filled (.and es) as (.and es')
  | or {es es' : List Expr} {as : List (RowRef × Expr)} :
    FilledAll es as es' → Filled (.or es) as (.or es')
/-- Every member is filled, the first member first. -/
inductive FilledAll : List Expr → List (RowRef × Expr) → List Expr → Prop where
  | nil : FilledAll [] [] []
  | cons {e e' : Expr} {es es' : List Expr} {as bs : List (RowRef × Expr)} :
    Filled e as e' → FilledAll es bs es' → FilledAll (e :: es) (as ++ bs) (e' :: es')
end

mutual
theorem map_ordinal_refs : ∀ e : Expr, e.refs.map RowRef.ordinal = e.ordinals
  | .row _ | .side _ | .literal _ => rfl
  | .binary _ left right => by
      rw [refs, List.map_append, map_ordinal_refs left, map_ordinal_refs right, ordinals]
  | .unary _ operand => map_ordinal_refs operand
  | .call _ args _ => map_ordinal_refsOfAll args
  | .and es | .or es => map_ordinal_refsOfAll es
theorem map_ordinal_refsOfAll : ∀ es : List Expr,
    (refsOfAll es).map RowRef.ordinal = ordinalsOfAll es
  | [] => rfl
  | e :: es => by
      rw [refsOfAll, List.map_append, map_ordinal_refs e, map_ordinal_refsOfAll es, ordinalsOfAll]
end

mutual
/-- Each reference is replaced once, in its turn. -/
theorem Filled.map_fst {e e' : Expr} {as : List (RowRef × Expr)} :
    Filled e as e' → as.map Prod.fst = e.refs
  | .row | .side | .literal => rfl
  | .binary hl hr => by rw [List.map_append, hl.map_fst, hr.map_fst, refs]
  | .unary h => h.map_fst
  | .call h | .and h | .or h => h.map_fst
theorem FilledAll.map_fst {es es' : List Expr} {as : List (RowRef × Expr)} :
    FilledAll es as es' → as.map Prod.fst = refsOfAll es
  | .nil => rfl
  | .cons h hs => by rw [List.map_append, h.map_fst, hs.map_fst, refsOfAll]
end

mutual
/-- The references are gone, and those of the replacements have come. -/
theorem Filled.ordinals_eq {e e' : Expr} {as : List (RowRef × Expr)} :
    Filled e as e' → e'.ordinals = as.flatMap (·.2.ordinals)
  | .row => (List.flatMap_singleton _ _).symm
  | .side | .literal => rfl
  | .binary hl hr => by rw [ordinals, hl.ordinals_eq, hr.ordinals_eq, List.flatMap_append]
  | .unary h => h.ordinals_eq
  | .call h | .and h | .or h => h.ordinals_eq
theorem FilledAll.ordinals_eq {es es' : List Expr} {as : List (RowRef × Expr)} :
    FilledAll es as es' → ordinalsOfAll es' = as.flatMap (·.2.ordinals)
  | .nil => rfl
  | .cons h hs => by rw [ordinalsOfAll, h.ordinals_eq, hs.ordinals_eq, List.flatMap_append]
end

/-- Replacements of the types of the references keep the type. -/
theorem Filled.type_eq {e e' : Expr} {as : List (RowRef × Expr)} :
    Filled e as e' → (∀ a ∈ as, a.2.type = a.1.type) → e'.type = e.type
  | .row, htypes => htypes _ (List.mem_singleton_self _)
  | .binary hl _, htypes => by
      rw [type, type, hl.type_eq (List.forall_mem_append.1 htypes).1]
  | @Filled.unary .neg _ _ _ h, htypes => h.type_eq htypes
  | @Filled.unary .not _ _ _ _, _ | @Filled.unary .isNull _ _ _ _, _
  | @Filled.unary .isNotNull _ _ _ _, _
  | .side, _ | .literal, _ | .call _, _ | .and _, _ | .or _, _ => rfl

/-- Lists that begin alike begin with the same, if the references tell where. -/
theorem append_inj_of_map_fst {as as' bs bs' : List (RowRef × Expr)}
    (h : as ++ bs = as' ++ bs') (hfst : as.map Prod.fst = as'.map Prod.fst) :
    as = as' ∧ bs = bs' := by
  have hlength := congrArg List.length hfst
  rw [List.length_map, List.length_map] at hlength
  exact List.append_inj h hlength

mutual
/-- The replacements determine the result. -/
theorem Filled.unique {e e' e'' : Expr} {as as' : List (RowRef × Expr)} :
    Filled e as e' → Filled e as' e'' → as = as' → e' = e''
  | .row, .row, h => by cases h; rfl
  | .side, .side, _ | .literal, .literal, _ => rfl
  | .binary hl hr, .binary hl' hr', h => by
      obtain ⟨has, hbs⟩ := append_inj_of_map_fst h (hl.map_fst.trans hl'.map_fst.symm)
      rw [hl.unique hl' has, hr.unique hr' hbs]
  | .unary h, .unary h', has => by rw [h.unique h' has]
  | .call h, .call h', has => by rw [h.unique h' has]
  | .and h, .and h', has => by rw [h.unique h' has]
  | .or h, .or h', has => by rw [h.unique h' has]
theorem FilledAll.unique {es es' es'' : List Expr} {as as' : List (RowRef × Expr)} :
    FilledAll es as es' → FilledAll es as' es'' → as = as' → es' = es''
  | .nil, .nil, _ => rfl
  | .cons h hs, .cons h' hs', heq => by
      obtain ⟨has, hbs⟩ := append_inj_of_map_fst heq (h.map_fst.trans h'.map_fst.symm)
      rw [h.unique h' has, hs.unique hs' hbs]
end

/-- A way to replace the references of an expression. -/
structure Filling (e : Expr) where
  replacements : List (RowRef × Expr)
  result : Expr
  filled : Filled e replacements result

/-- A way to replace the references of all members. -/
structure FillingAll (es : List Expr) where
  replacements : List (RowRef × Expr)
  results : List Expr
  filled : FilledAll es replacements results

section Monadic

variable {m : Type → Type} [Monad m] [LawfulMonad m]

/-- Calls `f` on the references of a list, in order, and puts the answers beside them. -/
def replaceEach (f : RowRef → m Expr) (rs : List RowRef) : m (List (RowRef × Expr)) :=
  rs.mapM fun r => (r, ·) <$> f r

theorem replaceEach_cons (f : RowRef → m Expr) (r : RowRef) (rs : List RowRef) :
    replaceEach f (r :: rs) = (do
      let value ← f r
      let as ← replaceEach f rs
      pure ((r, value) :: as)) := by
  simp [replaceEach]

theorem replaceEach_append (f : RowRef → m Expr) (rs rs' : List RowRef) :
    replaceEach f (rs ++ rs') = (do
      let as ← replaceEach f rs
      let bs ← replaceEach f rs'
      pure (as ++ bs)) := by
  rw [replaceEach, List.mapM_append]
  rfl

theorem exists_filling_of_members {e : Expr} {es : List Expr} {build : List Expr → Expr}
    (hbuild : ∀ {as es'}, FilledAll es as es' → Filled e as (build es'))
    {brought : m (List (RowRef × Expr))} {members : m (List Expr)}
    (h : ∃ x : m (FillingAll es), FillingAll.replacements <$> x = brought ∧
      FillingAll.results <$> x = members) :
    ∃ x : m (Filling e), Filling.replacements <$> x = brought ∧
      Filling.result <$> x = build <$> members := by
  obtain ⟨x, rfl, rfl⟩ := h
  exact ⟨(fun o => ⟨o.replacements, build o.results, hbuild o.filled⟩) <$> x, by simp, by simp⟩

mutual
/-- To replace the references of an expression is to call `f` on them one after the other and to
put the answers in their places. -/
theorem exists_filling (f : RowRef → m Expr) : ∀ e : Expr, ∃ x : m (Filling e),
    Filling.replacements <$> x = replaceEach f e.refs ∧ Filling.result <$> x = e.mapRefs f
  | .row r => ⟨(fun value => ⟨[(r, value)], value, .row⟩) <$> f r,
      by simp [replaceEach, refs], by simp [mapRefs]⟩
  | .side c => ⟨pure ⟨[], .side c, .side⟩, by simp [replaceEach, refs], by simp [mapRefs]⟩
  | .literal v => ⟨pure ⟨[], .literal v, .literal⟩, by simp [replaceEach, refs], by simp [mapRefs]⟩
  | .binary op left right => by
      obtain ⟨x, hx, hx'⟩ := exists_filling f left
      obtain ⟨y, hy, hy'⟩ := exists_filling f right
      refine ⟨x >>= fun l => y >>= fun r => pure ⟨l.replacements ++ r.replacements,
        .binary op l.result r.result, .binary l.filled r.filled⟩, ?_, ?_⟩
      · rw [refs, replaceEach_append, ← hx, ← hy]
        simp
      · rw [mapRefs, ← hx', ← hy']
        simp
  | .unary op operand => by
      obtain ⟨x, hx, hx'⟩ := exists_filling f operand
      refine ⟨(fun o => ⟨o.replacements, .unary op o.result, .unary o.filled⟩) <$> x, ?_, ?_⟩
      · rw [refs, ← hx]
        simp
      · rw [mapRefs, ← hx']
        simp
  | .call function args result => by
      rw [refs, mapRefs, bind_pure_comp]
      exact exists_filling_of_members .call (exists_fillingAll f args)
  | .and es => by
      rw [refs, mapRefs, bind_pure_comp]
      exact exists_filling_of_members .and (exists_fillingAll f es)
  | .or es => by
      rw [refs, mapRefs, bind_pure_comp]
      exact exists_filling_of_members .or (exists_fillingAll f es)
theorem exists_fillingAll (f : RowRef → m Expr) : ∀ es : List Expr, ∃ x : m (FillingAll es),
    FillingAll.replacements <$> x = replaceEach f (refsOfAll es) ∧
      FillingAll.results <$> x = mapRefsInAll f es
  | [] => ⟨pure ⟨[], [], .nil⟩, by simp [replaceEach, refsOfAll], by simp [mapRefsInAll]⟩
  | e :: es => by
      obtain ⟨x, hx, hx'⟩ := exists_filling f e
      obtain ⟨y, hy, hy'⟩ := exists_fillingAll f es
      refine ⟨x >>= fun o => y >>= fun os => pure ⟨o.replacements ++ os.replacements,
        o.result :: os.results, .cons o.filled os.filled⟩, ?_, ?_⟩
      · rw [refsOfAll, replaceEach_append, ← hx, ← hy]
        simp
      · rw [mapRefsInAll, ← hx', ← hy']
        simp
end

end Monadic

/-- An expression is filled with what was brought together for its references, or nothing can be
made of it because this has failed. -/
inductive FilledWith {ε : Type} (e : Expr) :
    Except ε (List (RowRef × Expr)) → Except ε Expr → Prop where
  | failed {error : ε} : FilledWith e (.error error) (.error error)
  | filled {as : List (RowRef × Expr)} {e' : Expr} : Filled e as e' → FilledWith e (.ok as) (.ok e')

section FilledWith

variable {ε : Type} {e : Expr} {brought : Except ε (List (RowRef × Expr))}
  {outcome outcome' : Except ε Expr}

theorem FilledWith.of_filling (x : Except ε (Filling e)) :
    FilledWith e (x.map Filling.replacements) (x.map Filling.result) := by
  cases x with
  | error error => exact .failed
  | ok filling => exact .filled filling.filled

theorem filledWith_mapRefs (f : RowRef → Except ε Expr) (e : Expr) :
    FilledWith e (replaceEach f e.refs) (e.mapRefs f) := by
  obtain ⟨x, hx, hx'⟩ := exists_filling f e
  rw [← hx, ← hx']
  exact .of_filling x

theorem FilledWith.unique (h : FilledWith e brought outcome) (h' : FilledWith e brought outcome') :
    outcome = outcome' := by
  cases h with
  | failed =>
      cases h'
      rfl
  | filled hfilled =>
      cases h' with
      | filled hfilled' => rw [hfilled.unique hfilled' rfl]

theorem FilledWith.eq_error_iff (h : FilledWith e brought outcome) {error : ε} :
    outcome = .error error ↔ brought = .error error := by
  cases h with
  | failed => rw [Except.error.injEq, Except.error.injEq]
  | filled => exact iff_of_false nofun nofun

theorem FilledWith.exists_filled {e' : Expr} (h : FilledWith e brought (.ok e')) :
    ∃ as, brought = .ok as ∧ Filled e as e' := by
  cases h with
  | filled hfilled => exact ⟨_, rfl, hfilled⟩

theorem FilledWith.exists_eq_ok_iff (h : FilledWith e brought outcome) :
    (∃ e', outcome = .ok e') ↔ ∃ as, brought = .ok as := by
  cases h with
  | failed => exact iff_of_false nofun nofun
  | filled => exact iff_of_true ⟨_, rfl⟩ ⟨_, rfl⟩

end FilledWith

end Expr

end QueryPlan
