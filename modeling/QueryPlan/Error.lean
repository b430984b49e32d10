import QueryPlan.Kind
import QueryPlan.Metadata.Property
import QueryPlan.Text.Quoted

/-!
# Why a plan is refused

Each constructor is a cause, with the data a person needs to find it. None of them is
retried: the first one ends the construction, the pass or the question at hand. The wording
stands in one place, `PlanError.message`.
-/

namespace QueryPlan

/-- The ways in which work on a plan can fail. -/
inductive PlanError where
  /-- A conjunct at the place of a join key is neither `=` nor `IS NOT DISTINCT FROM`. -/
  | comparatorUnsupported (conjunct : String)
  /-- A join has more key pairs than its condition has conjuncts. -/
  | conjunctMissing (position available : Nat)
  /-- A reference into the row of a join lies beyond both inputs. -/
  | inputUnresolved (ordinal left right : Nat)
  /-- A reference lies beyond the row it is evaluated on. -/
  | ordinalOutOfRange (ordinal width : Nat)
  /-- Expressions and names are not equally many. -/
  | lengthMismatch (exprs names : Nat)
  /-- Two fields of a projection have names that differ by case at most. -/
  | namesCollide (names : List String)
  /-- An operator was given too few or too many inputs. -/
  | inputCount (kind : OperatorKind) (expected actual : Nat)
  /-- A handler does not declare the node and the context first. The table shows what had
  been routed until then. -/
  | signatureMalformed (kind : OperatorKind) (handler : String)
      (declared : List Metadata.Parameter) (property : Metadata.Property) (table : String)
  /-- The arguments of a question do not fit the parameters of the property. -/
  | argumentsMismatch (property : Metadata.Property) (expected actual : List Metadata.Parameter)
  /-- A dispatch table was asked about a node of another kind. -/
  | kindMismatch (expected actual : OperatorKind)
  /-- The planner settings could not be read. -/
  | settingsRejected (reason : String)
  /-- The end of a range of ordinals is no ordinal itself: it needs more than 64 bits. -/
  | ordinalOverflow (offset width : Nat)
  deriving DecidableEq

/-- What a person is told. -/
def PlanError.message : PlanError → String
  | .comparatorUnsupported conjunct => "Unsupported comparator in join condition " ++ conjunct
  | .conjunctMissing position available =>
    "join key pair " ++ toString position ++ " has no matching conjunct (" ++
      toString available ++ " available)"
  | .inputUnresolved ordinal left right =>
    "Unable to handle input number: " ++ toString ordinal ++ " (left has " ++ toString left ++
      " fields, right has " ++ toString right ++ ")"
  | .ordinalOutOfRange ordinal width =>
    "input reference $" ++ toString ordinal ++ " out of range for a row of " ++
      toString width ++ " fields"
  | .lengthMismatch exprs names =>
    toString exprs ++ " expressions but " ++ toString names ++ " field names"
  | .namesCollide names =>
    "duplicate field names in projection " ++ Text.bracketed (names.map Text.quoted)
  | .inputCount kind expected actual =>
    Enumeration.name kind ++ " expects " ++ toString expected ++ " inputs, got " ++
      toString actual
  | .signatureMalformed kind handler declared property table =>
    "cannot build metadata dispatcher for " ++ Enumeration.name kind ++ ": handler '" ++
      handler ++ "' declares " ++ Metadata.Parameter.renderAll declared ++ " for " ++
      Enumeration.name property ++ ", which does not start with (Node, Context)\n" ++ table
  | .argumentsMismatch property expected actual =>
    "invalid arguments for " ++ Enumeration.name property ++ ": expected " ++
      Metadata.Parameter.renderAll expected ++ ", got " ++ Metadata.Parameter.renderAll actual
  | .kindMismatch expected actual =>
    "dispatcher for " ++ Enumeration.name expected ++ " cannot serve a " ++
      Enumeration.name actual ++ " node"
  | .settingsRejected reason => "invalid planner settings: " ++ reason
  | .ordinalOverflow offset width =>
    "a range of " ++ toString width ++ " fields from position " ++ toString offset ++
      " ends beyond the last ordinal"

end QueryPlan
