import Mathlib.Data.List.Forall2
import QueryPlan.Plan.Traversal
import QueryPlan.Proofs.Plan.Preorder
import QueryPlan.Proofs.StatefulRun

/-!
# Which calls a walk makes

The two steps of a walk may change a state, and they may fail. Which of them are called, and in
which order, is laid down by the plan alone: a node is entered, its inputs are visited from left
to right, and it is left with what its inputs have become. A step that fails is the last one to
be called. So the calls that are made are the beginning of a fixed list of visits, and all of it
unless a step before the last one fails.

A node that has several places in the plan is visited at each of them. A place is told by the
numbers of the inputs on the way to it from the root. The steps do not see it; it serves to say
which answers a node is given when it is left.
-/

namespace QueryPlan

namespace Walk

/-! ### Visits -/

inductive Step where
  | enter
  | leave

/-- A step at the node that has a place in the plan. -/
structure Visit where
  place : List Nat
  step : Step
  node : Plan

/-- The node that is entered. -/
def Visit.entered? : Visit → Option Plan
  | ⟨_, .enter, node⟩ => some node
  | ⟨_, .leave, _⟩ => none

end Walk

namespace Plan

/-- The visits in a walk over the plan if it has this place, in their order. -/
def visitsAt (place : List Nat) : Plan → List Walk.Visit
  | .source h op => [⟨place, .enter, .source h op⟩, ⟨place, .leave, .source h op⟩]
  | .transform h op input =>
    ⟨place, .enter, .transform h op input⟩ ::
      (input.visitsAt (place ++ [0]) ++ [⟨place, .leave, .transform h op input⟩])
  | .join h algorithm spec left right =>
    ⟨place, .enter, .join h algorithm spec left right⟩ ::
      (left.visitsAt (place ++ [0]) ++ right.visitsAt (place ++ [1]) ++
        [⟨place, .leave, .join h algorithm spec left right⟩])

/-- The visits in a walk over the whole plan. -/
def visits (p : Plan) : List Walk.Visit := p.visitsAt []

/-- The visits in a walk over the inputs, the first of which has this number. -/
def inputVisitsAt (place : List Nat) (k : Nat) (inputs : List Plan) : List Walk.Visit :=
  (inputs.zipIdx k).flatMap fun i => i.1.visitsAt (place ++ [i.2])

theorem visitsAt_eq (p : Plan) (place : List Nat) :
    p.visitsAt place =
      ⟨place, .enter, p⟩ :: (inputVisitsAt place 0 p.inputs ++ [⟨place, .leave, p⟩]) := by
  cases p <;> simp [visitsAt, inputVisitsAt, inputs]

theorem walk_eq {m : Type → Type} [Monad m] [LawfulMonad m] (w : Walk m) (p : Plan) :
    p.walk w = w.enter p >>= fun _ => p.inputs.mapM (walk w) >>= w.leave p := by
  cases p <;> simp [walk, inputs]

theorem prefix_of_mem_visitsAt {p : Plan} {place : List Nat} {v : Walk.Visit}
    (hv : v ∈ p.visitsAt place) : place <+: v.place := by
  induction p using inputs_induction generalizing place with
  | node p ih =>
      rw [visitsAt_eq, List.mem_cons, List.mem_append, List.mem_singleton] at hv
      rcases hv with rfl | hv | rfl
      · exact List.prefix_rfl
      · obtain ⟨i, hi, hv⟩ := List.mem_flatMap.1 hv
        exact (List.prefix_append place [i.2]).trans
          (ih i.1 (List.fst_mem_of_mem_zipIdx hi) hv)
      · exact List.prefix_rfl

theorem exists_prefix_of_mem_inputVisitsAt {ps : List Plan} {place : List Nat} {k : Nat}
    {v : Walk.Visit} (hv : v ∈ inputVisitsAt place k ps) :
    ∃ j, k ≤ j ∧ place ++ [j] <+: v.place := by
  obtain ⟨i, hi, hv⟩ := List.mem_flatMap.1 hv
  exact ⟨i.2, List.le_snd_of_mem_zipIdx hi, prefix_of_mem_visitsAt hv⟩

/-- The inputs have other places than the node. -/
theorem place_ne_of_mem_inputVisitsAt {ps : List Plan} {place : List Nat} {k : Nat}
    {v : Walk.Visit} (hv : v ∈ inputVisitsAt place k ps) : v.place ≠ place := by
  intro heq
  obtain ⟨j, -, hprefix⟩ := exists_prefix_of_mem_inputVisitsAt hv
  have hle := hprefix.length_le
  rw [heq, List.length_append, List.length_singleton] at hle
  omega

@[simp] theorem inputVisitsAt_cons (place : List Nat) (k : Nat) (p : Plan) (ps : List Plan) :
    inputVisitsAt place k (p :: ps) =
      p.visitsAt (place ++ [k]) ++ inputVisitsAt place (k + 1) ps := by
  simp [inputVisitsAt]

theorem nodup_inputVisitsAt {ps : List Plan} (place : List Nat) (k : Nat)
    (hps : ∀ p ∈ ps, ∀ place, ((p.visitsAt place).map fun v => (v.place, v.step)).Nodup) :
    ((inputVisitsAt place k ps).map fun v => (v.place, v.step)).Nodup := by
  induction ps generalizing k with
  | nil => exact List.nodup_nil
  | cons p ps ih =>
      obtain ⟨hp, hps⟩ := List.forall_mem_cons.1 hps
      rw [inputVisitsAt_cons, List.map_append, List.nodup_append]
      refine ⟨hp _, ih (k + 1) hps, ?_⟩
      rintro _ hkey _ hkey' rfl
      obtain ⟨v, hv, rfl⟩ := List.mem_map.1 hkey
      obtain ⟨v', hv', heq⟩ := List.mem_map.1 hkey'
      obtain ⟨j, hj, hprefix'⟩ := exists_prefix_of_mem_inputVisitsAt hv'
      have hplace : v'.place = v.place := congrArg Prod.fst heq
      rw [hplace] at hprefix'
      have hprefix := List.prefix_of_prefix_length_le (prefix_of_mem_visitsAt hv) hprefix' (by simp)
      have hkj : k = j := by simpa using hprefix.eq_of_length (by simp)
      omega

/-- No place is visited twice by one step. -/
theorem nodup_visitsAt (p : Plan) (place : List Nat) :
    ((p.visitsAt place).map fun v => (v.place, v.step)).Nodup := by
  induction p using inputs_induction generalizing place with
  | node p ih =>
      have hne : ∀ step, (place, step) ∉
          (inputVisitsAt place 0 p.inputs).map fun v => (v.place, v.step) := by
        intro step hmem
        obtain ⟨v, hv, heq⟩ := List.mem_map.1 hmem
        exact place_ne_of_mem_inputVisitsAt hv (congrArg Prod.fst heq)
      rw [visitsAt_eq, List.map_cons, List.map_append, List.map_singleton]
      refine List.nodup_cons.2 ⟨?_, List.nodup_append.2
        ⟨nodup_inputVisitsAt place 0 ih, by simp, ?_⟩⟩
      · simpa using hne .enter
      · rintro _ hv _ hv' rfl
        rw [List.mem_singleton.1 hv'] at hv
        exact hne .leave hv

/-- The nodes are entered in preorder, a shared one at each place it has. -/
theorem entered_visitsAt (p : Plan) (place : List Nat) :
    (p.visitsAt place).filterMap Walk.Visit.entered? = p.preorder := by
  induction p generalizing place with
  | source h op => rfl
  | transform h op input ih => simp [visitsAt, preorder, Walk.Visit.entered?, ih]
  | join h algorithm spec left right ihl ihr =>
      simp [visitsAt, preorder, Walk.Visit.entered?, ihl, ihr]

end Plan

namespace Walk

/-! ### Calls -/

/-- A call of a step, with what the step is given and what it answers. -/
inductive Call (ε : Type) where
  | enter (node : Plan) (answer : Except ε Unit)
  | leave (node : Plan) (inputs : List Plan) (answer : Except ε Plan)

variable {ε σ α β : Type}

/-- The failure of a part of a walk. -/
def failure? : Except ε α → Option ε
  | .ok _ => none
  | .error e => some e

namespace Call

def step : Call ε → Step
  | .enter .. => .enter
  | .leave .. => .leave

def node : Call ε → Plan
  | .enter node _ => node
  | .leave node _ _ => node

def error? : Call ε → Option ε
  | .enter _ answer => failure? answer
  | .leave _ _ answer => failure? answer

/-- The step answers in this way if it finds the first state, and leaves the second. -/
def Runs (w : Walk (ExceptT ε (StateM σ))) (s t : σ) : Call ε → Prop
  | .enter node answer => (w.enter node).run.run s = (answer, t)
  | .leave node inputs answer => (w.leave node inputs).run.run s = (answer, t)

end Call

/-- A call, and the place of the node at which it is made. -/
structure PlacedCall (ε : Type) where
  place : List Nat
  call : Call ε

def PlacedCall.visit (c : PlacedCall ε) : Visit := ⟨c.place, c.call.step, c.call.node⟩

/-- The step, written down as a call behind the calls before it. -/
def recorded (call : Except ε α → Call ε) (x : ExceptT ε (StateM σ) α) :
    ExceptT ε (StateM (List (Call ε) × σ)) α := fun before =>
  let (answer, s) := x.run.run before.2
  (answer, before.1 ++ [call answer], s)

/-- The walk whose steps answer as those of `w`, with a list of their calls beside the state. -/
def recording (w : Walk (ExceptT ε (StateM σ))) :
    Walk (ExceptT ε (StateM (List (Call ε) × σ))) where
  enter node := recorded (.enter node) (w.enter node)
  leave node inputs := recorded (.leave node inputs) (w.leave node inputs)

theorem run_recorded {call : Except ε α → Call ε} {x : ExceptT ε (StateM σ) α} {s t : σ}
    {answer : Except ε α} (h : x.run.run s = (answer, t)) (before : List (Call ε)) :
    (recorded call x).run.run (before, s) = (answer, before ++ [call answer], t) := by
  change (let (answer, s) := x.run.run s; (answer, before ++ [call answer], s)) = _
  rw [h]

/-- The calls that are made for a list of visits in order, from one state to another, with the
failure that ends them. Each call finds the state that the one before it has left, and the first
one that fails is the last. -/
inductive Calls (w : Walk (ExceptT ε (StateM σ))) :
    List Visit → σ → List (PlacedCall ε) → Option ε → σ → Prop where
  | nil {s : σ} : Calls w [] s [] none s
  | answered {c : PlacedCall ε} {vs : List Visit} {s t u : σ} {calls : List (PlacedCall ε)}
      {failure : Option ε} :
    c.call.Runs w s t → c.call.error? = none → Calls w vs t calls failure u →
    Calls w (c.visit :: vs) s (c :: calls) failure u
  | failed {c : PlacedCall ε} {vs : List Visit} {s t : σ} {e : ε} :
    c.call.Runs w s t → c.call.error? = some e → Calls w (c.visit :: vs) s [c] (some e) t

section Calls

variable {w : Walk (ExceptT ε (StateM σ))} {vs : List Visit} {s t u : σ}
  {calls calls' : List (PlacedCall ε)} {failure : Option ε} {e : ε}

theorem Calls.append (h : Calls w vs s calls none t) {vs' : List Visit}
    (h' : Calls w vs' t calls' failure u) :
    Calls w (vs ++ vs') s (calls ++ calls') failure u := by
  generalize hnone : none = failure₀ at h
  induction h with
  | nil => exact h'
  | answered hrun hok _ ih => exact .answered hrun hok (ih h' hnone)
  | failed => cases hnone

theorem Calls.append_of_failed (h : Calls w vs s calls (some e) t) (vs' : List Visit) :
    Calls w (vs ++ vs') s calls (some e) t := by
  generalize hsome : some e = failure at h ⊢
  induction h with
  | nil => cases hsome
  | answered hrun hok _ ih => exact .answered hrun hok (ih hsome)
  | failed hrun herror => exact .failed hrun herror

theorem Calls.map_visit_prefix (h : Calls w vs s calls failure t) :
    calls.map PlacedCall.visit <+: vs := by
  induction h with
  | nil => exact List.prefix_rfl
  | answered _ _ _ ih => exact (List.prefix_cons_inj _).2 ih
  | failed => exact (List.prefix_cons_inj _).2 List.nil_prefix

/-- Behind a call that fails there is no other. -/
theorem Calls.eq_nil_of_error (h : Calls w vs s calls failure t)
    {before after : List (PlacedCall ε)} {c : PlacedCall ε} (hc : c.call.error? = some e)
    (hcalls : calls = before ++ c :: after) : after = [] := by
  induction h generalizing before with
  | nil => simp at hcalls
  | answered _ hok _ ih =>
      cases before with
      | nil =>
          cases hcalls
          rw [hok] at hc
          cases hc
      | cons => exact ih (List.cons.inj hcalls).2
  | failed =>
      cases before with
      | nil => exact (List.cons.inj hcalls).2.symm
      | cons => simp at hcalls

theorem Calls.failure_eq_some_iff (h : Calls w vs s calls failure t) :
    failure = some e ↔ ∃ c ∈ calls, c.call.error? = some e := by
  induction h with
  | nil => simp
  | answered _ hok _ ih => simp [ih, hok]
  | failed _ herror => simp [herror]

end Calls

/-! ### What a walk comes to -/

/-- A part of a walk, and the same part of the walk that writes its calls down: they end in the
same way, and the calls are made for the visits. -/
structure Trace (w : Walk (ExceptT ε (StateM σ))) (x : ExceptT ε (StateM σ) α)
    (x' : ExceptT ε (StateM (List (Call ε) × σ)) α) (vs : List Visit) (s : σ)
    (calls : List (PlacedCall ε)) (outcome : Except ε α) (t : σ) : Prop where
  run : x.run.run s = (outcome, t)
  recorded : ∀ before, x'.run.run (before, s) = (outcome, before ++ calls.map PlacedCall.call, t)
  calls : Calls w vs s calls (failure? outcome) t

section Trace

variable {w : Walk (ExceptT ε (StateM σ))} {x : ExceptT ε (StateM σ) α}
  {x' : ExceptT ε (StateM (List (Call ε) × σ)) α} {k : α → ExceptT ε (StateM σ) β}
  {k' : α → ExceptT ε (StateM (List (Call ε) × σ)) β} {vs vs' : List Visit} {s t u : σ}
  {calls calls' : List (PlacedCall ε)}

theorem Trace.bind {a : α} {outcome : Except ε β} (hx : Trace w x x' vs s calls (.ok a) t)
    (hk : Trace w (k a) (k' a) vs' t calls' outcome u) :
    Trace w (x >>= k) (x' >>= k') (vs ++ vs') s (calls ++ calls') outcome u where
  run := (run_bind_of_ok hx.run).trans hk.run
  recorded before := by
    rw [run_bind_of_ok (hx.recorded before), hk.recorded, List.map_append, List.append_assoc]
  calls := hx.calls.append hk.calls

theorem Trace.bind_of_error {e : ε} (hx : Trace w x x' vs s calls (.error e) t)
    (vs' : List Visit) : Trace w (x >>= k) (x' >>= k') (vs ++ vs') s calls (.error e) t where
  run := run_bind_of_error hx.run
  recorded before := run_bind_of_error (hx.recorded before)
  calls := hx.calls.append_of_failed vs'

theorem Trace.map {outcome : Except ε α} (hx : Trace w x x' vs s calls outcome t) (g : α → β) :
    Trace w (g <$> x) (g <$> x') vs s calls (outcome.map g) t where
  run := by
    rw [run_map, hx.run]
    rfl
  recorded before := by
    rw [run_map, hx.recorded]
    rfl
  calls := by
    have hfailure : failure? (outcome.map g) = failure? outcome := by cases outcome <;> rfl
    rw [hfailure]
    exact hx.calls

theorem Trace.pure (w : Walk (ExceptT ε (StateM σ))) (a : α) (s : σ) :
    Trace w (Pure.pure a) (Pure.pure a) [] s [] (.ok a) s where
  run := rfl
  recorded before := by
    rw [List.map_nil, List.append_nil]
    rfl
  calls := .nil

/-- A single call. -/
theorem Trace.of_run {c : PlacedCall ε} {outcome : Except ε α} (hcall : c.call.Runs w s t)
    (herror : c.call.error? = failure? outcome) (hrun : x.run.run s = (outcome, t))
    (hrecorded : ∀ before, x'.run.run (before, s) = (outcome, before ++ [c.call], t)) :
    Trace w x x' [c.visit] s [c] outcome t where
  run := hrun
  recorded := hrecorded
  calls := by
    cases houtcome : failure? outcome with
    | none => exact .answered hcall (herror.trans houtcome) .nil
    | some e => exact .failed hcall (herror.trans houtcome)

theorem trace_enter {p : Plan} {answer : Except ε Unit} (place : List Nat)
    (h : (w.enter p).run.run s = (answer, t)) :
    Trace w (w.enter p) (w.recording.enter p) [⟨place, .enter, p⟩] s
      [⟨place, .enter p answer⟩] answer t :=
  .of_run (c := ⟨place, .enter p answer⟩) h rfl h (run_recorded h)

theorem trace_leave {p : Plan} {inputs : List Plan} {answer : Except ε Plan} (place : List Nat)
    (h : (w.leave p inputs).run.run s = (answer, t)) :
    Trace w (w.leave p inputs) (w.recording.leave p inputs) [⟨place, .leave, p⟩] s
      [⟨place, .leave p inputs answer⟩] answer t :=
  .of_run (c := ⟨place, .leave p inputs answer⟩) h rfl h (run_recorded h)

end Trace

/-- The node at the place is left, and this is the answer. -/
def LeftWith (calls : List (PlacedCall ε)) (place : List Nat) (node : Plan)
    (answer : Except ε Plan) : Prop :=
  ∃ inputs, ⟨place, .leave node inputs answer⟩ ∈ calls

/-- A node is left with what was answered for its inputs, in their order. -/
def HandsUp (calls : List (PlacedCall ε)) : Prop :=
  ∀ place node inputs answer, ⟨place, .leave node inputs answer⟩ ∈ calls →
    List.Forall₂ (fun i q => LeftWith calls (place ++ [i.2]) i.1 (.ok q)) node.inputs.zipIdx inputs

theorem LeftWith.mono {calls calls' : List (PlacedCall ε)} {place : List Nat} {p : Plan}
    {answer : Except ε Plan} (hsub : calls ⊆ calls') (h : LeftWith calls place p answer) :
    LeftWith calls' place p answer :=
  h.imp fun _ hcall => hsub hcall

section HandsUp

variable {calls calls' : List (PlacedCall ε)} {place place' : List Nat} {p p' q : Plan}
  {answer answer' : Except ε Plan}

@[simp] theorem leftWith_enter {answer' : Except ε Unit} :
    LeftWith (⟨place', .enter p' answer'⟩ :: calls) place p answer ↔
      LeftWith calls place p answer := by
  simp [LeftWith]

@[simp] theorem leftWith_leave {inputs : List Plan} :
    LeftWith (calls ++ [⟨place', .leave p' inputs answer'⟩]) place p answer ↔
      LeftWith calls place p answer ∨ place = place' ∧ p = p' ∧ answer = answer' := by
  simp [LeftWith, exists_or]

theorem HandsUp.nil : HandsUp ([] : List (PlacedCall ε)) := nofun

theorem HandsUp.append (h : HandsUp calls) (h' : HandsUp calls') : HandsUp (calls ++ calls') := by
  intro place node inputs answer hcall
  rcases List.mem_append.1 hcall with hcall | hcall
  · exact (h place node inputs answer hcall).imp fun _ _ =>
      LeftWith.mono (List.subset_append_left calls calls')
  · exact (h' place node inputs answer hcall).imp fun _ _ =>
      LeftWith.mono (List.subset_append_right calls calls')

theorem HandsUp.enter (h : HandsUp calls) (place : List Nat) (p : Plan) (answer : Except ε Unit) :
    HandsUp (⟨place, .enter p answer⟩ :: calls) := by
  have hfirst : HandsUp [⟨place, .enter p answer⟩] := by simp [HandsUp]
  exact hfirst.append h

theorem HandsUp.leave {inputs : List Plan} (h : HandsUp calls) (answer : Except ε Plan)
    (hinputs : List.Forall₂ (fun i q => LeftWith calls (place ++ [i.2]) i.1 (.ok q))
      p.inputs.zipIdx inputs) :
    HandsUp (calls ++ [⟨place, .leave p inputs answer⟩]) := by
  intro place' node inputs' answer' hcall
  have hmono : calls ⊆ calls ++ [⟨place, .leave p inputs answer⟩] :=
    List.subset_append_left calls _
  rcases List.mem_append.1 hcall with hcall | hcall
  · exact (h place' node inputs' answer' hcall).imp fun _ _ => LeftWith.mono hmono
  · cases List.mem_singleton.1 hcall
    exact hinputs.imp fun _ _ => LeftWith.mono hmono

/-- If no step replaces a node whose inputs are kept, every node is kept. -/
theorem HandsUp.eq_of_keeps (h : HandsUp calls)
    (hkeeps : ∀ place node inputs q, ⟨place, .leave node inputs (.ok q)⟩ ∈ calls →
      node.hasInputs inputs = true → q = node)
    (hq : LeftWith calls place p (.ok q)) : q = p := by
  induction p using Plan.inputs_induction generalizing place q with
  | node p ih =>
      obtain ⟨inputs, hcall⟩ := hq
      have hall : List.Forall₂ (fun i q => i.1 ∈ p.inputs ∧ LeftWith calls (place ++ [i.2]) i.1
          (.ok q)) p.inputs.zipIdx inputs :=
        (List.forall₂_and_left (p := fun i : Plan × Nat => i.1 ∈ p.inputs) _ _).2
          ⟨fun i hi => List.fst_mem_of_mem_zipIdx hi, h place p inputs _ hcall⟩
      have hsame : p.inputs.zipIdx.map Prod.fst = inputs :=
        List.forall₂_eq_eq_eq ▸ List.forall₂_map_left_iff.2
          (hall.imp fun i q hi => (ih i.1 hi.1 hi.2).symm)
      rw [List.zipIdx_map_fst] at hsame
      exact hkeeps place p inputs q hcall (hsame ▸ p.hasInputs_self)

end HandsUp

theorem Calls.not_leftWith {w : Walk (ExceptT ε (StateM σ))} {ps : List Plan} {place : List Nat}
    {k : Nat} {s t : σ} {calls : List (PlacedCall ε)} {failure : Option ε}
    (h : Calls w (Plan.inputVisitsAt place k ps) s calls failure t) (p : Plan)
    (answer : Except ε Plan) : ¬LeftWith calls place p answer := by
  rintro ⟨inputs, hcall⟩
  have hvisit := h.map_visit_prefix.subset (List.mem_map_of_mem hcall)
  exact Plan.place_ne_of_mem_inputVisitsAt hvisit rfl

/-- All visits are made exactly if the topmost node is left. -/
theorem Calls.map_visit_eq_iff {w : Walk (ExceptT ε (StateM σ))} {p : Plan} {place : List Nat}
    {s t : σ} {calls : List (PlacedCall ε)} {failure : Option ε}
    (h : Calls w (p.visitsAt place) s calls failure t) :
    calls.map PlacedCall.visit = p.visitsAt place ↔ ∃ answer, LeftWith calls place p answer := by
  constructor
  · intro hall
    have hlast : (⟨place, .leave, p⟩ : Visit) ∈ calls.map PlacedCall.visit := by
      rw [hall, Plan.visitsAt_eq]
      simp
    obtain ⟨⟨place', call⟩, hcall, hvisit⟩ := List.mem_map.1 hlast
    cases call with
    | enter node answer => cases hvisit
    | leave node inputs answer =>
        cases hvisit
        exact ⟨answer, inputs, hcall⟩
  · rintro ⟨answer, inputs, hcall⟩
    have hleave := List.mem_map_of_mem (f := PlacedCall.visit) hcall
    have hprefix := h.map_visit_prefix
    rw [Plan.visitsAt_eq, ← List.cons_append] at hprefix ⊢
    -- The last visit is not one of those before it, so that a beginning which has it is the whole.
    refine (List.prefix_concat_iff.1 hprefix).resolve_right fun hbefore => ?_
    rcases List.mem_cons.1 (hbefore.subset hleave) with heq | hmem
    · cases heq
    · exact Plan.place_ne_of_mem_inputVisitsAt hmem rfl

section Walk

variable (w : Walk (ExceptT ε (StateM σ)))

/-- A walk over the plan at the place. -/
def HasTrace (p : Plan) : Prop :=
  ∀ (place : List Nat) (s : σ), ∃ calls outcome t,
    Trace w (p.walk w) (p.walk w.recording) (p.visitsAt place) s calls outcome t ∧
      HandsUp calls ∧ ∀ q, outcome = .ok q ↔ LeftWith calls place p (.ok q)

variable {w}

theorem exists_trace_inputs {ps : List Plan} (hps : ∀ p ∈ ps, HasTrace w p) (place : List Nat)
    (k : Nat) (s : σ) : ∃ calls outcome t,
      Trace w (ps.mapM (Plan.walk w)) (ps.mapM (Plan.walk w.recording))
        (Plan.inputVisitsAt place k ps) s calls outcome t ∧
      HandsUp calls ∧ ∀ qs, outcome = .ok qs →
        List.Forall₂ (fun i q => LeftWith calls (place ++ [i.2]) i.1 (.ok q)) (ps.zipIdx k) qs := by
  induction ps generalizing k s with
  | nil => exact ⟨[], .ok [], s, .pure w [] s, .nil, by simp⟩
  | cons p ps ih =>
      obtain ⟨hp, hps⟩ := List.forall_mem_cons.1 hps
      obtain ⟨calls, outcome, t, htrace, hup, hleft⟩ := hp (place ++ [k]) s
      simp only [List.mapM_cons, bind_pure_comp, Plan.inputVisitsAt_cons]
      cases outcome with
      | error e => exact ⟨calls, .error e, t, htrace.bind_of_error _, hup, nofun⟩
      | ok q =>
          obtain ⟨calls', outcome', u, htrace', hup', hleft'⟩ := ih hps (k + 1) t
          refine ⟨calls ++ calls', outcome'.map (q :: ·), u, htrace.bind (htrace'.map _),
            hup.append hup', fun qs hqs => ?_⟩
          cases outcome' with
          | error e => cases hqs
          | ok qs' =>
              cases hqs
              rw [List.zipIdx_cons]
              refine .cons (((hleft q).1 rfl).mono (List.subset_append_left calls calls')) ?_
              exact (hleft' qs' rfl).imp fun _ _ =>
                LeftWith.mono (List.subset_append_right calls calls')

theorem exists_trace (w : Walk (ExceptT ε (StateM σ))) (p : Plan) : HasTrace w p := by
  induction p using Plan.inputs_induction with
  | node p ih =>
      intro place s
      rw [Plan.walk_eq, Plan.walk_eq, Plan.visitsAt_eq]
      rcases henter : (w.enter p).run.run s with ⟨_ | ⟨⟩, t⟩
      · refine ⟨_, .error _, t, (trace_enter place henter).bind_of_error _, .enter .nil _ _ _, ?_⟩
        simp [LeftWith]
      · obtain ⟨calls, outcome, u, htrace, hup, hinputs⟩ := exists_trace_inputs ih place 0 t
        have hentered := trace_enter place henter
        cases outcome with
        | error e =>
            refine ⟨_, .error e, u, hentered.bind (htrace.bind_of_error _), hup.enter _ _ _, ?_⟩
            simp [htrace.calls.not_leftWith]
        | ok qs =>
            rcases hleave : (w.leave p qs).run.run u with ⟨answer, v⟩
            refine ⟨_, answer, v, hentered.bind (htrace.bind (trace_leave place hleave)),
              (hup.leave answer (hinputs qs rfl)).enter _ _ _, ?_⟩
            simp [htrace.calls.not_leftWith, eq_comm]

end Walk

end Walk

/-- The calls that a walk makes are the beginning of a list of visits that is laid down by the
plan alone and has every node once for each of its places, and behind a call that fails there is
no other. All visits are made if the walk succeeds, and otherwise only if it is the last of them
that fails, where the root is left. A node is left with what was answered when its inputs were
left, in their order. The walk returns the answer for the root or the failure. So if no step
replaces a node whose inputs are kept, the very root is returned. -/
theorem Plan.run_walk_calls {ε σ : Type} (p : Plan) (w : Walk (ExceptT ε (StateM σ))) (s : σ) :
    (p.visits.map fun v => (v.place, v.step)).Nodup ∧
      p.visits.filterMap Walk.Visit.entered? = p.preorder ∧ ∃ calls outcome t,
      (p.walk w.recording).run.run ([], s) = (outcome, calls.map Walk.PlacedCall.call, t) ∧
      (p.walk w).run.run s = (outcome, t) ∧
      Walk.Calls w p.visits s calls (Walk.failure? outcome) t ∧
      calls.map Walk.PlacedCall.visit <+: p.visits ∧
      (∀ before c after error, calls = before ++ c :: after →
        c.call.error? = some error → after = []) ∧
      (calls.map Walk.PlacedCall.visit = p.visits ↔
        (∃ q, outcome = .ok q) ∨ ∃ error, Walk.LeftWith calls [] p (.error error)) ∧
      Walk.HandsUp calls ∧
      (∀ q, outcome = .ok q ↔ Walk.LeftWith calls [] p (.ok q)) ∧
      (∀ error, outcome = .error error ↔ ∃ c ∈ calls, c.call.error? = some error) ∧
      ((∀ place node inputs q, ⟨place, .leave node inputs (.ok q)⟩ ∈ calls →
          node.hasInputs inputs = true → q = node) →
        ∀ q, outcome = .ok q → q = p) := by
  obtain ⟨calls, outcome, t, htrace, hup, hresult⟩ := Walk.exists_trace w p [] s
  have hcalls := htrace.calls
  have herror : ∀ error, outcome = .error error ↔ ∃ c ∈ calls, c.call.error? = some error := by
    intro error
    rw [← hcalls.failure_eq_some_iff]
    cases outcome <;> simp [Walk.failure?]
  refine ⟨p.nodup_visitsAt [], p.entered_visitsAt [], calls, outcome, t, htrace.recorded [],
    htrace.run, hcalls, hcalls.map_visit_prefix,
    fun before c after error heq hc => hcalls.eq_nil_of_error hc heq, ?_, hup, hresult, herror,
    fun hkeeps q hq => hup.eq_of_keeps hkeeps ((hresult q).1 hq)⟩
  rw [visits, hcalls.map_visit_eq_iff]
  constructor
  · rintro ⟨error | q, hleft⟩
    · exact .inr ⟨error, hleft⟩
    · exact .inl ⟨q, (hresult q).2 hleft⟩
  · rintro (⟨q, hq⟩ | ⟨error, hleft⟩)
    · exact ⟨_, (hresult q).1 hq⟩
    · exact ⟨_, hleft⟩

/-! A scan that is refused when it is left. All visits are made, and yet the walk fails. -/

namespace RefusedScan

def scan : Plan := .source ⟨⟨0⟩, ⟨[⟨"a", .int64⟩]⟩, .unknown⟩ (.scan ⟨"s", "t"⟩)

def refusing : Walk (ExceptT String (StateM Unit)) where
  enter _ := pure ()
  leave _ _ := throw "post"

def calls : List (Walk.PlacedCall String) :=
  [⟨[], .enter scan (.ok ())⟩, ⟨[], .leave scan [] (.error "post")⟩]

theorem visited_and_failed :
    (scan.walk refusing.recording).run.run ([], ()) =
        (.error "post", calls.map Walk.PlacedCall.call, ()) ∧
      calls.map Walk.PlacedCall.visit = scan.visits ∧
      ¬(calls.map Walk.PlacedCall.visit = scan.visits ↔
        ∃ q, (scan.walk refusing).run.run () = (.ok q, ())) := by
  have hvisits : calls.map Walk.PlacedCall.visit = scan.visits := rfl
  refine ⟨rfl, hvisits, fun hiff => ?_⟩
  obtain ⟨q, hq⟩ := hiff.1 hvisits
  cases hq

end RefusedScan

end QueryPlan
