import Mathlib.Data.List.Induction
import QueryPlan.Proofs.Metadata.TableCache

/-!
# Who is asked about a property

The bindings of a kind are those of the registrations for this kind and for every kind, in the
order in which they were made. A table is made of them unless one of them has a handler that
does not declare the node and the context first, and then the earliest of these is reported.

The handlers of a property are those that serve it in some binding. The slots number the handlers
by their first binding, for whichever property, and a property's handlers are asked in the order
of the slots. So of two handlers of a property the one that was bound first is asked first, even
if the other one was the first to be bound to this property.
-/

namespace QueryPlan.Metadata

/-! ### Registrations -/

/-- A handler is bound for one operator kind, or for every one. -/
inductive Registration where
  | one (kind : OperatorKind) (b : Binding)
  | every (b : Binding)

namespace Registration

def apply (r : Registry) : Registration → Registry
  | .one kind b => r.register kind b
  | .every b => r.registerAll b

/-- The binding that is made for an operator kind. -/
def binding? (kind : OperatorKind) : Registration → Option Binding
  | .one kind' b => if kind' = kind then some b else none
  | .every b => some b

end Registration

namespace Registry

/-- The registry after some registrations. -/
def ofRegistrations (calls : List Registration) : Registry :=
  calls.foldl Registration.apply .empty

theorem bindings_foldl_register (r : Registry) (kinds : List OperatorKind) (kind : OperatorKind)
    (b : Binding) :
    (kinds.foldl (fun r kind => r.register kind b) r).bindings kind =
      r.bindings kind ++ List.replicate (kinds.count kind) b := by
  induction kinds generalizing r with
  | nil => simp
  | cons first rest ih =>
      rw [List.foldl_cons, ih, bindings_register, List.append_assoc, List.count_cons]
      by_cases h : first = kind
      · simp [h, List.replicate_succ]
      · simp [h]

theorem bindings_registerAll (r : Registry) (kind : OperatorKind) (b : Binding) :
    (r.registerAll b).bindings kind = r.bindings kind ++ [b] := by
  have honce : (Enumeration.all : List OperatorKind).count kind = 1 := by
    cases kind <;> decide
  rw [registerAll, bindings_foldl_register, honce]
  rfl

theorem bindings_foldl_apply (r : Registry) (calls : List Registration) (kind : OperatorKind) :
    (calls.foldl Registration.apply r).bindings kind =
      r.bindings kind ++ calls.filterMap (Registration.binding? kind) := by
  induction calls generalizing r with
  | nil => simp
  | cons call rest ih =>
      rw [List.foldl_cons, ih]
      cases call with
      | one kind' b =>
          rw [Registration.apply, bindings_register, List.append_assoc]
          by_cases h : kind' = kind <;> simp [Registration.binding?, h]
      | every b =>
          rw [Registration.apply, bindings_registerAll, List.append_assoc]
          rfl

theorem bindings_ofRegistrations (calls : List Registration) (kind : OperatorKind) :
    (ofRegistrations calls).bindings kind = calls.filterMap (Registration.binding? kind) :=
  bindings_foldl_apply .empty calls kind

end Registry

/-! ### The table -/

variable {handlers : Handlers} {kind : OperatorKind} {bindings : List Binding} {b : Binding}
  {p : Property}

namespace Binding

/-- The handler declares the node and the context first. -/
def Declares (handlers : Handlers) (b : Binding) : Prop :=
  Parameter.implicit <+: (handlers b.handler).signature b.property

/-- The handler declares just what the property asks for. -/
def Serves (handlers : Handlers) (b : Binding) : Prop :=
  (handlers b.handler).signature b.property = b.property.signature

instance : DecidablePred (Declares handlers) :=
  fun _ => inferInstanceAs (Decidable (Parameter.implicit <+: _))

instance : DecidablePred (Serves handlers) :=
  fun b => inferInstanceAs (Decidable (_ = b.property.signature))

theorem declares_iff : b.Declares handlers ↔
    ((handlers b.handler).signature b.property).take 2 = Parameter.implicit := by
  rw [Declares, List.prefix_iff_eq_take, eq_comm]
  rfl

theorem Declares.serves_iff (h : b.Declares handlers) : b.Serves handlers ↔
    ((handlers b.handler).signature b.property).drop 2 = b.property.parameters := by
  have htake := declares_iff.1 h
  rw [Serves, Property.signature]
  conv_lhs => rw [← List.take_append_drop 2 ((handlers b.handler).signature b.property), htake]
  exact List.append_right_inj _

end Binding

theorem Routes.mem_add {routes : Routes} {slot : Nat} {r : Property × Nat} :
    r ∈ routes.add p slot ↔ r ∈ routes ∨ r = (p, slot) := by
  rw [add]
  by_cases h : routes.contains (p, slot) = true
  · rw [if_pos h]
    have hmem : (p, slot) ∈ routes := List.contains_iff_mem.1 h
    refine ⟨Or.inl, ?_⟩
    rintro (hr | rfl)
    · exact hr
    · exact hmem
  · rw [if_neg h, List.mem_append, List.mem_singleton]

namespace DispatchTable

section Routes

variable {providers : List HandlerId} {routes : Routes} {rest : List Binding}

/-- A handler that declares the node and the context is given a route, or is passed over. -/
theorem routeAll_cons (h : b.Declares handlers) :
    routeAll handlers kind providers routes (b :: rest) =
      routeAll handlers kind providers
        (if b.Serves handlers then routes.add b.property (providers.idxOf b.handler) else routes)
        rest := by
  have htake : (((handlers b.handler).signature b.property).take 2 == Parameter.implicit) = true :=
    beq_iff_eq.2 (Binding.declares_iff.1 h)
  by_cases hserves : b.Serves handlers
  · have hdrop := beq_iff_eq.2 (h.serves_iff.1 hserves)
    rw [routeAll, if_pos htake, if_pos hdrop, if_pos hserves]
  · have hdrop := mt beq_iff_eq.1 (mt h.serves_iff.2 hserves)
    rw [routeAll, if_pos htake, if_neg hdrop, if_neg hserves]

/-- If every handler declares the node and the context, each binding whose handler serves its
property has its route, and there are no other routes. -/
theorem exists_routeAll (kind : OperatorKind) (providers : List HandlerId) (routes : Routes)
    (hall : ∀ b ∈ bindings, b.Declares handlers) :
    ∃ found, routeAll handlers kind providers routes bindings = .ok found ∧
      ∀ r, r ∈ found ↔ r ∈ routes ∨
        ∃ b ∈ bindings, b.Serves handlers ∧ (b.property, providers.idxOf b.handler) = r := by
  induction bindings generalizing routes with
  | nil => exact ⟨routes, rfl, by simp⟩
  | cons b rest ih =>
      obtain ⟨hb, hrest⟩ := List.forall_mem_cons.1 hall
      obtain ⟨found, hfound, hmem⟩ := ih _ hrest
      refine ⟨found, (routeAll_cons hb).trans hfound, fun r => ?_⟩
      rw [hmem r]
      by_cases hserves : b.Serves handlers
      · simp [hserves, Routes.mem_add, or_assoc, eq_comm]
      · simp [hserves]

/-- The earliest handler that does not declare the node and the context is reported. -/
theorem exists_routeAll_error (kind : OperatorKind) (providers : List HandlerId)
    (routes : Routes) {before after : List Binding} (hbefore : ∀ b ∈ before, b.Declares handlers)
    (hb : ¬ b.Declares handlers) :
    ∃ table, routeAll handlers kind providers routes (before ++ b :: after) =
      .error (.signatureMalformed kind (handlers b.handler).name
        ((handlers b.handler).signature b.property) b.property table) := by
  induction before generalizing routes with
  | nil =>
      have htake := mt beq_iff_eq.1 (mt Binding.declares_iff.2 hb)
      rw [List.nil_append, routeAll, if_neg htake]
      exact ⟨_, rfl⟩
  | cons first rest ih =>
      obtain ⟨hfirst, hrest⟩ := List.forall_mem_cons.1 hbefore
      rw [List.cons_append, routeAll_cons hfirst]
      exact ih _ hrest

end Routes

/-- If some handler does not declare the node and the context there is no table, and the earliest
such binding is reported. -/
theorem exists_build_error (kind : OperatorKind)
    (hsome : ∃ b ∈ bindings, ¬ b.Declares handlers) :
    ∃ before b after table, bindings = before ++ b :: after ∧
      (∀ b' ∈ before, b'.Declares handlers) ∧ ¬ b.Declares handlers ∧
      build handlers kind bindings = .error (.signatureMalformed kind (handlers b.handler).name
        ((handlers b.handler).signature b.property) b.property table) := by
  have hsome : (bindings.find? fun b => decide (¬ b.Declares handlers)).isSome := by
    simpa using hsome
  obtain ⟨b, hfind⟩ := Option.isSome_iff_exists.1 hsome
  obtain ⟨hb, before, after, rfl, hbefore⟩ := List.find?_eq_some_iff_append.1 hfind
  have hb : ¬ b.Declares handlers := of_decide_eq_true hb
  have hbefore : ∀ b' ∈ before, b'.Declares handlers := by simpa using hbefore
  obtain ⟨table, hroutes⟩ := exists_routeAll_error kind (providersOf _) [] hbefore hb
  exact ⟨before, b, after, table, rfl, hbefore, hb, by rw [build, hroutes]; rfl⟩

/-- Of the handlers of a table, an earlier slot has the handler that was bound earlier. -/
theorem pairwise_providersOf (bindings : List Binding) :
    (providersOf bindings).Pairwise fun h h' =>
      (bindings.map Binding.handler).idxOf h < (bindings.map Binding.handler).idxOf h' := by
  rw [providersOf]
  induction bindings.map Binding.handler using List.reverseRecOn with
  | nil => exact .nil
  | append_singleton earlier h ih =>
      rw [List.eraseDups_append, List.pairwise_append]
      refine ⟨ih.imp_of_mem fun ha ha' hlt => ?_, ?_, fun a ha a' ha' => ?_⟩
      · rwa [List.idxOf_append_of_mem (List.mem_eraseDups.1 ha),
          List.idxOf_append_of_mem (List.mem_eraseDups.1 ha')]
      · by_cases hold : h ∈ earlier <;> simp [List.removeAll, List.eraseDups_cons, hold]
      · have ha := List.mem_eraseDups.1 ha
        obtain ⟨hlast, hnew⟩ : a' = h ∧ a' ∉ earlier := by
          simpa [List.removeAll] using List.mem_eraseDups.1 ha'
        rw [List.idxOf_append_of_mem ha, List.idxOf_append_of_notMem hnew]
        exact Nat.lt_add_right _ (List.idxOf_lt_length_of_mem ha)

/-- The handlers that are asked about a property: those that serve it in some binding, each once,
in the order of their first bindings. -/
structure Asks (handlers : Handlers) (bindings : List Binding) (p : Property)
    (order : List HandlerId) : Prop where
  mem_iff : ∀ h, h ∈ order ↔ ∃ b ∈ bindings, b.property = p ∧ b.handler = h ∧ b.Serves handlers
  nodup : order.Nodup
  earliest_first : order.Pairwise fun h h' =>
    (bindings.map Binding.handler).idxOf h < (bindings.map Binding.handler).idxOf h'

theorem mem_handlersFor {t : DispatchTable} {h : HandlerId} :
    h ∈ t.handlersFor p ↔ ∃ i, (p, i) ∈ t.routes ∧ t.providers[i]? = some h := by
  rw [handlersFor, List.mem_filterMap]
  refine exists_congr fun i => and_congr_left fun hi => ?_
  have hlt : i < t.providers.length := (List.getElem?_eq_some_iff.1 hi).1
  simp [slots, slotCount, hlt]

/-- If every handler declares the node and the context there is a table, and it asks about each
property the handlers that serve it. -/
theorem exists_build (kind : OperatorKind) (hall : ∀ b ∈ bindings, b.Declares handlers) :
    ∃ t, build handlers kind bindings = .ok t ∧ t.kind = kind ∧
      ∀ p, Asks handlers bindings p (t.handlersFor p) := by
  obtain ⟨found, hfound, hmem⟩ :=
    exists_routeAll kind (providersOf bindings) [] hall
  have hbuild : build handlers kind bindings = .ok ⟨kind, providersOf bindings, found⟩ := by
    rw [build, hfound]
    rfl
  refine ⟨_, hbuild, rfl, fun p => ?_⟩
  have hearliest : (handlersFor ⟨kind, providersOf bindings, found⟩ p).Pairwise fun h h' =>
      (bindings.map Binding.handler).idxOf h < (bindings.map Binding.handler).idxOf h' := by
    refine (List.pairwise_lt_range.filter _).filterMap _ fun i j hlt h hi h' hj => ?_
    obtain ⟨hilt, rfl⟩ := List.getElem?_eq_some_iff.1 hi
    obtain ⟨hjlt, rfl⟩ := List.getElem?_eq_some_iff.1 hj
    exact List.pairwise_iff_getElem.1 (pairwise_providersOf bindings) i j hilt hjlt hlt
  refine ⟨fun h => ?_, hearliest.imp fun hlt heq => ?_, hearliest⟩
  · rw [mem_handlersFor]
    constructor
    · rintro ⟨i, hi, hslot⟩
      obtain hnil | ⟨b, hb, hserves, heq⟩ := (hmem _).1 hi
      · cases hnil
      · cases heq
        have hown := List.getElem?_idxOf (handler_mem_providersOf hb)
        exact ⟨b, hb, rfl, Option.some.inj (hown.symm.trans hslot), hserves⟩
    · rintro ⟨b, hb, rfl, rfl, hserves⟩
      exact ⟨_, (hmem _).2 (.inr ⟨b, hb, hserves, rfl⟩),
        List.getElem?_idxOf (handler_mem_providersOf hb)⟩
  · exact absurd (heq ▸ hlt) (Nat.lt_irrefl _)

end DispatchTable

end QueryPlan.Metadata
