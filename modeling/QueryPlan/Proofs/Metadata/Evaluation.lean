import Mathlib.Data.Set.Defs
import QueryPlan.Metadata.Session

/-!
# What a question comes to

A question has an answer that no session enters into. The arguments are checked, the dispatch
table is made from the registry, the handlers of the property are asked in turn, and every
question that a handler asks is answered in the same way, each time anew. The depth bounds how
far this goes, as it does in a session, and an answer that is reached at some depth is reached
at every greater one.

Handlers are pure if they cannot tell questions apart that compare equal. Such questions then
come to the same.
-/

namespace QueryPlan.Metadata

/-- The questions are about one node and one property, and their arguments compare equal. -/
structure Question.Like (q q' : Question) : Prop where
  node_eq : q.node = q'.node
  property_eq : q.property = q'.property
  args_eq : (q.args == q'.args) = true

/-- Whatever it is told, the inquiry asks only about the given nodes. -/
inductive Inquiry.AsksAbout (nodes : Set Plan) : Inquiry → Prop where
  | answer {a : Answer} : AsksAbout nodes (.answer a)
  | ask {q : Question} {next : Answer → Inquiry} : q.node ∈ nodes →
    (∀ a, AsksAbout nodes (next a)) → AsksAbout nodes (.ask q next)

/-- Asked about one of the given nodes, the handler asks about given nodes only. It answers
questions that compare equal in the same way, if the questions that it asks are answered so. -/
structure Handler.Pure (nodes : Set Plan) (h : Handler) : Prop where
  asksAbout : ∀ q, q.node ∈ nodes → (h.handle q).AsksAbout nodes
  run_eq : ∀ q q', q.Like q' → ∀ respond : Question → Option Answer,
    (∀ r r', r.Like r' → respond r = respond r') →
      (h.handle q).run respond = (h.handle q').run respond

variable (handlers : Handlers) (registry : Registry)

/-- Asks handlers in turn. The first that has a value or fails decides. -/
def consultAll (respond : Question → Option Answer) (q : Question) :
    List HandlerId → Option Answer
  | [] => some (.ok none)
  | h :: rest =>
    ((handlers h).handle q).run respond >>= fun
      | .ok none => consultAll respond q rest
      | decided => some decided

/-- What the question comes to, with questions nested at most `depth` deep. -/
def evaluate : (depth : Nat) → Question → Option Answer
  | 0, _ => none
  | depth + 1, q =>
    match Session.checkArguments q with
    | .error e => some (.error e)
    | .ok () =>
      match DispatchTable.build handlers q.node.kind (registry.bindings q.node.kind) with
      | .error e => some (.error e)
      | .ok table => consultAll handlers (evaluate depth) q (table.handlersFor q.property)

variable {handlers registry} {q q' : Question} {a b : Answer}

section Evaluate

variable {n : Nat} {e : PlanError}

theorem evaluate_of_checkArguments (hargs : Session.checkArguments q = .error e) :
    evaluate handlers registry (n + 1) q = some (.error e) := by
  simp only [evaluate, hargs]

theorem evaluate_of_build_error (hargs : Session.checkArguments q = .ok ())
    (hbuild : DispatchTable.build handlers q.node.kind (registry.bindings q.node.kind) =
      .error e) : evaluate handlers registry (n + 1) q = some (.error e) := by
  simp only [evaluate, hargs, hbuild]

theorem evaluate_of_build {table : DispatchTable} (hargs : Session.checkArguments q = .ok ())
    (hbuild : DispatchTable.build handlers q.node.kind (registry.bindings q.node.kind) =
      .ok table) :
    evaluate handlers registry (n + 1) q =
      consultAll handlers (evaluate handlers registry n) q (table.handlersFor q.property) := by
  simp only [evaluate, hargs, hbuild]

end Evaluate

/-- An answer that is reached at some depth stays at every greater one. -/
def Stable (f : Nat → Option Answer) : Prop := ∀ ⦃m n a⦄, m ≤ n → f m = some a → f n = some a

section Stable

variable {f g : Question → Option Answer}

theorem Inquiry.run_eq_some_of_le (hle : ∀ q a, f q = some a → g q = some a) (i : Inquiry)
    (hrun : i.run f = some a) : i.run g = some a := by
  induction i with
  | answer a' => exact hrun
  | ask q next ih =>
      obtain ⟨a', hq, hnext⟩ := Option.bind_eq_some_iff.1 hrun
      exact Option.bind_eq_some_iff.2 ⟨a', hle q a' hq, ih a' hnext⟩

theorem consultAll_eq_some_of_le (hle : ∀ q a, f q = some a → g q = some a)
    (hs : List HandlerId) (hrun : consultAll handlers f q hs = some a) :
    consultAll handlers g q hs = some a := by
  induction hs with
  | nil => exact hrun
  | cons h rest ih =>
      obtain ⟨a', hfirst, hrest⟩ := Option.bind_eq_some_iff.1 hrun
      refine Option.bind_eq_some_iff.2 ⟨a', Inquiry.run_eq_some_of_le hle _ hfirst, ?_⟩
      match a', hrest with
      | .ok none, hrest => exact ih hrest
      | .ok (some v), hrest => exact hrest
      | .error e, hrest => exact hrest

theorem stable_evaluate (q : Question) : Stable fun n => evaluate handlers registry n q := by
  intro m
  induction m generalizing q with
  | zero =>
      intro n a _ hm
      cases hm
  | succ m ih =>
      intro n a hle (hm : evaluate handlers registry (m + 1) q = some a)
      obtain ⟨n, rfl⟩ := Nat.exists_eq_add_one_of_ne_zero (Nat.ne_zero_of_lt hle)
      have hdeeper : ∀ q a, evaluate handlers registry m q = some a →
          evaluate handlers registry n q = some a := fun q a =>
        ih q (Nat.le_of_succ_le_succ hle)
      show evaluate handlers registry (n + 1) q = some a
      cases hargs : Session.checkArguments q with
      | error e =>
          rw [evaluate_of_checkArguments hargs] at hm ⊢
          exact hm
      | ok u =>
          cases hbuild : DispatchTable.build handlers q.node.kind
              (registry.bindings q.node.kind) with
          | error e =>
              rw [evaluate_of_build_error hargs hbuild] at hm ⊢
              exact hm
          | ok table =>
              rw [evaluate_of_build hargs hbuild] at hm ⊢
              exact consultAll_eq_some_of_le hdeeper _ hm

theorem stable_run (i : Inquiry) : Stable fun n => i.run (evaluate handlers registry n) :=
  fun _ _ _ hle => Inquiry.run_eq_some_of_le (fun q _ => stable_evaluate q hle) i

theorem stable_consultAll (q : Question) (hs : List HandlerId) :
    Stable fun n => consultAll handlers (evaluate handlers registry n) q hs :=
  fun _ _ _ hle => consultAll_eq_some_of_le (fun q _ => stable_evaluate q hle) hs

/-- Two answers that are reached, at whatever depths, are the same. -/
theorem Stable.unique {f : Nat → Option Answer} (hf : Stable f) {m n : Nat} (hm : f m = some a)
    (hn : f n = some b) : a = b := by
  have hmax := hf (Nat.le_max_left m n) hm
  rw [hf (Nat.le_max_right m n) hn] at hmax
  exact (Option.some.inj hmax).symm

end Stable

/-! ### Questions that compare equal -/

theorem Argument.parameter_eq_of_beq {x y : Argument} (h : (x == y) = true) :
    x.parameter = y.parameter := by
  cases x <;> cases y <;> first | rfl | cases h

theorem map_parameter_eq_of_beq {xs ys : List Argument} (h : (xs == ys) = true) :
    xs.map Argument.parameter = ys.map Argument.parameter := by
  induction xs generalizing ys with
  | nil =>
      cases ys with
      | nil => rfl
      | cons y ys => cases h
  | cons x xs ih =>
      cases ys with
      | nil => cases h
      | cons y ys =>
          obtain ⟨hxy, hrest⟩ := Bool.and_eq_true_iff.1 h
          rw [List.map_cons, List.map_cons, Argument.parameter_eq_of_beq hxy, ih hrest]

theorem Question.Like.checkArguments_eq (h : q.Like q') :
    Session.checkArguments q = Session.checkArguments q' := by
  rw [Session.checkArguments, Session.checkArguments, h.property_eq,
    map_parameter_eq_of_beq h.args_eq]

section Pure

variable {nodes : Set Plan} (hpure : ∀ h, (handlers h).Pure nodes)

include hpure

theorem Question.Like.consultAll_eq (h : q.Like q') {respond : Question → Option Answer}
    (hrespond : ∀ r r', r.Like r' → respond r = respond r') (hs : List HandlerId) :
    consultAll handlers respond q hs = consultAll handlers respond q' hs := by
  induction hs with
  | nil => rfl
  | cons first rest ih =>
      rw [consultAll, consultAll, (hpure first).run_eq q q' h respond hrespond, ih]

/-- Questions that compare equal come to the same. -/
theorem Question.Like.evaluate_eq (h : q.Like q') (n : Nat) :
    evaluate handlers registry n q = evaluate handlers registry n q' := by
  induction n generalizing q q' with
  | zero => rfl
  | succ n ih =>
      rw [evaluate, evaluate, h.checkArguments_eq, h.node_eq, h.property_eq]
      have hconsult : ∀ hs, consultAll handlers (evaluate handlers registry n) q hs =
          consultAll handlers (evaluate handlers registry n) q' hs :=
        h.consultAll_eq hpure fun r r' hr => ih hr
      simp only [hconsult]

end Pure

end QueryPlan.Metadata
