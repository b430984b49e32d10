import QueryPlan.Metadata.TableCache
import QueryPlan.Settings

/-!
# Planning sessions

All questions about plans are asked in a session. A session remembers every answer it has
given, by node, property and arguments, so a subplan that is reached along several ways is
looked at once. That nobody knows an answer is remembered like a value; a failure is not
remembered.

A question goes through five steps. Its arguments must fit the property. A remembered
answer is given at once. Otherwise the dispatch table of the node's kind is found, and shown
if the session shows tables and has not shown this kind's yet. Then the handlers of the
property are asked in turn until one has a value or fails. A value is remembered.

A handler may ask further questions in the same session. Nothing keeps it from asking for
ever, so the nesting of questions is bounded by a depth; running out of it is the outcome
`none`, which is no answer.
-/

namespace QueryPlan.Metadata

/-- Under what an answer is remembered. -/
structure MemoKey where
  node : NodeId
  property : Property
  args : List Argument
  deriving BEq

/-- The key under which the answer to a question is remembered. -/
def Question.key (q : Question) : MemoKey := ⟨q.node.id, q.property, q.args⟩

/-- Something that happened in a session. -/
inductive SessionEvent where
  /-- A handler was asked. -/
  | asked (handler : HandlerId) (key : MemoKey)
  /-- A dispatch table was shown. -/
  | shown (table : String)

/-- A planning session. -/
structure Session where
  registry : Registry
  /-- Show every dispatch table at its first use. -/
  showsTables : Bool
  cache : TableCache
  /-- The answers given so far, the latest first. -/
  memo : List (MemoKey × Option Value)
  /-- The operator kinds whose table has been shown. -/
  shownKinds : List OperatorKind
  /-- What happened so far, in order. -/
  events : List SessionEvent

/-- Work in a session. `none` means that questions were nested too deeply. -/
abbrev SessionM := StateT Session Option

namespace Session

/-- A session that has answered nothing yet. -/
def start (registry : Registry) (cache : TableCache) : Session :=
  ⟨registry, false, cache, [], [], []⟩

/-- The session under the given settings. -/
def withSettings (s : Session) (settings : Settings) : Session :=
  { s with showsTables := settings.logDispatchTables }

/-- The remembered answer under a key. -/
def remembered? (s : Session) (key : MemoKey) : Option (Option Value) :=
  (s.memo.find? fun e => e.1 == key).map Prod.snd

/-- Remembers an answer, in the place of an earlier one under the same key. -/
def remember (s : Session) (key : MemoKey) (v : Option Value) : Session :=
  { s with memo := (key, v) :: s.memo.filter fun e => e.1 != key }

/-- The number of remembered answers. -/
def memoSize (s : Session) : Nat := s.memo.length

/-- Appends to what happened. -/
def record (s : Session) (e : SessionEvent) : Session :=
  { s with events := s.events ++ [e] }

/-- Shows a table unless tables are not shown or this kind's has been. -/
def showTable (handlers : Handlers) (t : DispatchTable) (s : Session) : Session :=
  if s.showsTables && !s.shownKinds.contains t.kind then
    { s with shownKinds := t.kind :: s.shownKinds }.record (.shown (t.describe handlers))
  else s

/-- The table for a list of bindings, through the cache of the session. -/
def resolve (handlers : Handlers) (kind : OperatorKind) (bindings : List Binding) :
    SessionM (Except PlanError CachedTable) :=
  modifyGet fun s =>
    let (found, cache) := s.cache.resolve handlers kind bindings
    (found, { s with cache := cache })

/-- Asks handlers in turn. The first that has a value or fails decides. -/
def consult (handlers : Handlers) (respond : Question → SessionM Answer) (q : Question) :
    List HandlerId → SessionM Answer
  | [] => pure (.ok none)
  | h :: rest => do
    modify fun s => s.record (.asked h q.key)
    match ← ((handlers h).handle q).run respond with
    | .ok none => consult handlers respond q rest
    | decided => pure decided

/-- Asks the handlers that a table has for the question. The table must be one for the kind
of the node; arguments are not looked at. -/
def dispatch (handlers : Handlers) (respond : Question → SessionM Answer) (t : DispatchTable)
    (q : Question) : SessionM Answer :=
  if q.node.kind = t.kind then consult handlers respond q (t.handlersFor q.property)
  else pure (.error (.kindMismatch t.kind q.node.kind))

/-- The arguments of a question fit the parameters of the property. -/
def checkArguments (q : Question) : Except PlanError Unit :=
  let actual := q.args.map Argument.parameter
  if actual = q.property.parameters then .ok ()
  else .error (.argumentsMismatch q.property q.property.parameters actual)

/-- Answers a question that is not remembered. -/
def compute (handlers : Handlers) (respond : Question → SessionM Answer) (q : Question) :
    SessionM Answer := do
  let kind := q.node.kind
  let s ← get
  match ← resolve handlers kind (s.registry.bindings kind) with
  | .error e => pure (.error e)
  | .ok found =>
    modify (showTable handlers found.table)
    match ← dispatch handlers respond found.table q with
    | .error e => pure (.error e)
    | .ok v =>
      modify fun s => s.remember q.key v
      pure (.ok v)

/-- Answers a question, with questions nested at most `depth` deep. -/
def ask (handlers : Handlers) : (depth : Nat) → Question → SessionM Answer
  | 0, _ => fun _ => none
  | depth + 1, q =>
    match checkArguments q with
    | .error e => pure (.error e)
    | .ok () => do
      let s ← get
      match s.remembered? q.key with
      | some v => pure (.ok v)
      | none => compute handlers (ask handlers depth) q

/-- The part of an answer that a reader of one sort of value is after. -/
def reading {α : Type} (read : Value → Option α) (a : SessionM Answer) :
    SessionM (Except PlanError (Option α)) := do
  match ← a with
  | .error e => pure (.error e)
  | .ok v => pure (.ok (v.bind read))

variable (handlers : Handlers) (depth : Nat) (node : Plan)

def rowCount : SessionM (Except PlanError (Option Double)) :=
  reading Value.number? (ask handlers depth ⟨.rowCount, node, []⟩)

def maxRowCount : SessionM (Except PlanError (Option Double)) :=
  reading Value.number? (ask handlers depth ⟨.maxRowCount, node, []⟩)

def distinctRowCount (columns : List Nat) (predicate : Option Expr) :
    SessionM (Except PlanError (Option Double)) :=
  reading Value.number?
    (ask handlers depth ⟨.distinctRowCount, node, [.columns columns, .predicate predicate]⟩)

def selectivity (predicate : Option Expr) : SessionM (Except PlanError (Option Double)) :=
  reading Value.number? (ask handlers depth ⟨.selectivity, node, [.predicate predicate]⟩)

def columnUniqueness (columns : List Nat) (ignoreNulls : Bool) :
    SessionM (Except PlanError (Option Bool)) :=
  reading Value.bool?
    (ask handlers depth ⟨.columnUniqueness, node, [.columns columns, .flag ignoreNulls]⟩)

def distribution : SessionM (Except PlanError (Option Distribution)) :=
  reading Value.distribution? (ask handlers depth ⟨.distribution, node, []⟩)

def collation : SessionM (Except PlanError (Option (List SortKey))) :=
  reading Value.collation? (ask handlers depth ⟨.collation, node, []⟩)

end Session

end QueryPlan.Metadata
