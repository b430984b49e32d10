import QueryPlan.Form.Expr
import QueryPlan.Join.KeyCondition
import QueryPlan.Settings

/-!
# Stored operators

The stored forms of schemas, traits, operators, key conditions and settings.
-/

namespace QueryPlan

open Storable

instance : Storable Field where
  toData f := .object [("name", toData f.name), ("data_type", toData f.type)]
  ofData? d :=
    match d.fields? ["name", "data_type"] with
    | some [name, type] => do
      some ⟨← requiredField name, ← requiredField type⟩
    | _ => none

instance : Storable Schema where
  toData s := .object [("fields", toData s.fields)]
  ofData? d :=
    match d.fields? ["fields"] with
    | some [fields] => do
      some ⟨← requiredField fields⟩
    | _ => none

instance : Storable SortKey where
  toData k := .object [("index", toData k.ordinal), ("ascending", toData k.ascending),
    ("nulls_first", toData k.nullsFirst)]
  ofData? d :=
    match d.fields? ["index", "ascending", "nulls_first"] with
    | some [ordinal, ascending, nullsFirst] => do
      some ⟨← requiredField ordinal, ← requiredField ascending,
        ← requiredField nullsFirst⟩
    | _ => none

instance : Storable Distribution where
  toData
    | .any => .text "Any"
    | .single => .text "Single"
    | .broadcast => .text "Broadcast"
    | .hash ordinals => .tag "Hash" (toData ordinals)
    | .roundRobin => .text "RoundRobin"
  ofData? d :=
    match d.tagged? with
    | some ("Hash", contents) => (requiredField contents).map .hash
    | _ =>
      match d.unitTag? with
      | some "Any" => some .any
      | some "Single" => some .single
      | some "Broadcast" => some .broadcast
      | some "RoundRobin" => some .roundRobin
      | _ => none

/-- The order may be missing from the stored form. -/
instance : Storable Traits where
  toData t := .object [("distribution", toData t.distribution),
    ("collation", toData t.collation)]
  ofData? d :=
    match d.fields? ["distribution", "collation"] with
    | some [distribution, collation] => do
      some ⟨← requiredField distribution, ← optionalField collation⟩
    | _ => none

instance : Storable Table where
  toData t := .object [("schema", toData t.schema), ("name", toData t.name)]
  ofData? d :=
    match d.fields? ["schema", "name"] with
    | some [schema, name] => do
      some ⟨← requiredField schema, ← requiredField name⟩
    | _ => none

instance : Storable Aggregate where
  toData a := .object [("func", toData a.function), ("args", toData a.args),
    ("distinct", toData a.distinct), ("name", toData a.name), ("data_type", toData a.type)]
  ofData? d :=
    match d.fields? ["func", "args", "distinct", "name", "data_type"] with
    | some [function, args, distinct, name, type] => do
      some ⟨← requiredField function, ← requiredField args, ← requiredField distinct,
        ← requiredField name, ← requiredField type⟩
    | _ => none

/-- The extra condition may be missing from the stored form. -/
instance : Storable JoinSpec where
  toData s := .object [("join_type", toData s.joinType), ("condition", toData s.condition),
    ("equi_keys", toData s.keys), ("extra_condition", toData s.extra)]
  ofData? d :=
    match d.fields? ["join_type", "condition", "equi_keys", "extra_condition"] with
    | some [joinType, condition, keys, extra] => do
      some ⟨← requiredField joinType, ← requiredField condition, ← requiredField keys,
        ← optionalField extra⟩
    | _ => none

namespace Operator

/-- The stored form of an operator. -/
def store : Operator → Data
  | .source (.scan table) => .tag "Scan" (.object [("table", toData table)])
  | .source (.values rows) => .tag "Values" (.object [("rows", toData rows)])
  | .transform (.filter predicate) =>
    .tag "Filter" (.object [("predicate", toData predicate)])
  | .transform (.project exprs allowDuplicates) =>
    .tag "Project" (.object [("exprs", toData exprs),
      ("allow_duplicates", toData allowDuplicates)])
  | .transform (.aggregate groupBy aggregates) =>
    .tag "HashAggregate" (.object [("group_by", toData groupBy),
      ("aggregates", toData aggregates)])
  | .transform (.sort order) => .tag "Sort" (.object [("order", toData order)])
  | .transform (.limit offset count) =>
    .tag "Limit" (.object [("offset", toData offset), ("count", toData count)])
  | .transform (.exchange distribution) =>
    .tag "Exchange" (.object [("distribution", toData distribution)])
  | .transform (.writer target) => .tag "Writer" (.object [("target", toData target)])
  | .transform .screen => .text "Screen"
  | .join algorithm spec =>
    .tag (Enumeration.name (OperatorKind.ofAlgorithm algorithm)) (toData spec)

/-- The operator of a kind from its stored contents. -/
def restoreKind? (kind : OperatorKind) (contents : Option Data) : Option Operator :=
  let fields (names : List String) : Option (List (Option Data)) :=
    contents.bind (Data.members? names)
  match kind with
  | .scan =>
    match fields ["table"] with
    | some [table] => (requiredField table).map fun t => .source (.scan t)
    | _ => none
  | .values =>
    match fields ["rows"] with
    | some [rows] => (requiredField rows).map fun n => .source (.values n)
    | _ => none
  | .filter =>
    match fields ["predicate"] with
    | some [predicate] => (requiredField predicate).map fun e => .transform (.filter e)
    | _ => none
  | .project =>
    match fields ["exprs", "allow_duplicates"] with
    | some [exprs, allowDuplicates] => do
      some (.transform (.project (← requiredField exprs) (← requiredField allowDuplicates)))
    | _ => none
  | .hashJoin => (requiredField contents).map (.join .hash)
  | .mergeJoin => (requiredField contents).map (.join .merge)
  | .nestedLoopJoin => (requiredField contents).map (.join .nestedLoop)
  | .hashAggregate =>
    match fields ["group_by", "aggregates"] with
    | some [groupBy, aggregates] => do
      some (.transform (.aggregate (← requiredField groupBy) (← requiredField aggregates)))
    | _ => none
  | .sort =>
    match fields ["order"] with
    | some [order] => (requiredField order).map fun keys => .transform (.sort keys)
    | _ => none
  | .limit =>
    match fields ["offset", "count"] with
    | some [offset, count] => do
      some (.transform (.limit (← requiredField offset) (← requiredField count)))
    | _ => none
  | .exchange =>
    match fields ["distribution"] with
    | some [distribution] => (requiredField distribution).map fun d => .transform (.exchange d)
    | _ => none
  | .writer =>
    match fields ["target"] with
    | some [target] => (requiredField target).map fun t => .transform (.writer t)
    | _ => none
  | .screen =>
    match contents with
    | none | some .null => some (.transform .screen)
    | _ => none

/-- Reads an operator: its kind first, and then what belongs to that kind. -/
def restore? (d : Data) : Option Operator := do
  let (tag, contents) ← d.tagged?
  let kind ← Enumeration.ofName? tag
  restoreKind? kind contents

instance : Storable Operator := ⟨store, restore?⟩

end Operator

instance : Storable QuotedName where
  toData q := .object [("name", toData q.name)]
  ofData? d :=
    match d.fields? ["name"] with
    | some [name] => do
      some ⟨← requiredField name⟩
    | _ => none

instance : Storable KeyCondition where
  toData k := .object [("comparator", toData k.comparator), ("left", toData k.left),
    ("right", toData k.right)]
  ofData? d :=
    match d.fields? ["comparator", "left", "right"] with
    | some [comparator, left, right] => do
      some ⟨← requiredField comparator, ← requiredField left, ← requiredField right⟩
    | _ => none

namespace Settings

/-- Moves the switches whose stored position is given; the others stay. -/
def restoreSwitches? (s : Settings) : List (Switch × Option Data) → Option Settings
  | [] => some s
  | (_, none) :: rest => s.restoreSwitches? rest
  | (switch, some d) :: rest => do
    let on ← d.bool?
    (s.set switch on).restoreSwitches? rest

/-- Settings are stored as a record with a field per switch. Fields may be missing, in an
array from the end. -/
instance : Storable Settings where
  toData s := .object (Switch.all.map fun switch => (switch.key, toData (s.get switch)))
  ofData?
    | .object members =>
      restoreSwitches? {} (Switch.all.map fun switch => (switch, Data.lookup members switch.key))
    | .array items =>
      if items.length ≤ Switch.all.length then
        restoreSwitches? {} (Switch.all.zip (items.map some))
      else none
    | _ => none

end Settings

end QueryPlan
