import QueryPlan.Pass.Basic

/-!
# Star columns

A `*` in a query stands, for each table it covers, for one column named `**`, the star
column of that table. Once a row has a star column and another column beside it, one can
no longer tell which table a column came from. This pass finds such rows and tells the
star columns apart:

* a leaf with a star column gets a projection above it that renames its star columns to
  `T0$**`, `T1$**`, …, the number being new for each leaf;
* the screen gets a projection below it that restores the names the user asked for;
* a plan that writes a table leaves the restoring to the writer, and no projection is put
  under its screen.

The need for prefixes is noticed during a single walk and from then on holds to its end.
So a leaf that is visited before the need is noticed keeps its names, even if a later
leaf does not. The numbers start at zero for every walk.
-/

namespace QueryPlan

namespace StarColumn

/-- The name is that of a star column without a prefix. -/
def isBare (name : String) : Bool := "**".toList.isPrefixOf name.toList

/-- What stands between a prefix and the name behind it begins here or further on. -/
def containsMark : List Char → Bool
  | [] => false
  | c :: rest => "$**".toList.isPrefixOf (c :: rest) || containsMark rest

/-- The name is that of a star column with a prefix: a dollar sign with two stars behind it
is in it, and the first such place is not the beginning. -/
def isPrefixed (name : String) : Bool :=
  containsMark name.toList && !"$**".toList.isPrefixOf name.toList

/-- The name under the prefix of a leaf. -/
def withPrefix (leaf : Nat) (name : String) : String := "T" ++ toString leaf ++ "$" ++ name

/-- The star columns of the names under the prefix of a leaf, and the other names as they
are. -/
def withPrefixes (leaf : Nat) (names : List String) : List String :=
  names.map fun name => if isBare name then withPrefix leaf name else name

/-- The row has a star column without a prefix. -/
def inRow (s : Schema) : Bool := s.names.any isBare

/-- Some expression is a bare reference to a star column of the row. -/
def isProjected (row : Schema) (exprs : List Expr) : Bool :=
  exprs.any fun e => ((e.bareOrdinal?).bind row.field?).any fun f => isBare f.name

end StarColumn

/-- What has been decided during one walk. -/
structure StarState where
  /-- Leaves visited from now on get a prefix. -/
  prefixNeeded : Bool := false
  /-- A writer has taken over the restoring of names. -/
  writerRestores : Bool := false
  /-- The number of leaves that have got a prefix, which is also the next number. -/
  prefixedLeaves : Nat := 0
  deriving DecidableEq

/-- Work on a plan that keeps these decisions. -/
abbrev StarM := StateT StarState PlanM

namespace StarColumn

/-- From now on leaves get a prefix. -/
def needPrefix : StarM Unit :=
  modify fun s => { s with prefixNeeded := true }

/-- The row of the node has a star column and another column. -/
def isMixedRow (p : Plan) : Bool := inRow p.schema && 1 < p.width

/-- A node at which the need for prefixes shows when it is entered: a projection that hands
on a star column beside another output, or an operator whose row is mixed. Leaves are
looked at when they are left; the boundary of the plan does not count. -/
def showsNeed : Plan → Bool
  | .source _ _ => false
  | .transform _ .screen _ | .transform _ (.writer _) _ => false
  | .transform h (.project exprs _) input => isProjected input.schema exprs && 1 < h.schema.width
  | p => isMixedRow p

/-- On the way down. -/
def enter (p : Plan) : StarM Unit := do
  if showsNeed p then needPrefix

/-- A leaf gets a prefix if one is needed and it has star columns. If none is needed yet,
its own row may show the need. -/
def leaveLeaf (leaf : Plan) : StarM Plan := do
  let s ← get
  if s.prefixNeeded && inRow leaf.schema then
    set { s with prefixedLeaves := s.prefixedLeaves + 1 }
    leaf.project leaf.schema.identity (withPrefixes s.prefixedLeaves leaf.fieldNames)
  else
    if isMixedRow leaf then needPrefix
    pure leaf

/-- The writer takes over the restoring of names if there are prefixes. -/
def leaveWriter (writer : Plan) (inputs : List Plan) : StarM Plan := do
  let s ← get
  if s.prefixNeeded then
    set { s with writerRestores := true }
    writer.withInputs inputs
  else pure writer

/-- The screen shows the names it had, unless a writer takes care of them. Two names may
be alike if the screen has more than one field. -/
def leaveScreen (screen : Plan) (inputs : List Plan) : StarM Plan := do
  let s ← get
  if s.prefixNeeded && 0 < s.prefixedLeaves then
    if s.writerRestores then screen.withInputs inputs
    else
      match inputs with
      | [input] =>
        let restored ← Plan.projectWith (1 < screen.width) input screen.schema.identity
          screen.fieldNames
        screen.withInputs [restored]
      | _ => throw (.inputCount screen.kind 1 inputs.length)
  else pure screen

/-- The names a projection takes over a new input: a bare reference hands on the name it
refers to, any other field keeps its name. -/
def inheritedNames (input : Schema) (exprs : List Expr) (fields : List Field) : List String :=
  List.zipWith (fun e f => (((e.bareOrdinal?).bind input.field?).map Field.name).getD f.name)
    exprs fields

/-- A projection hands on the names of its new input and is left out if it does nothing
else than hand on the row. -/
def leaveProject (project : Plan) (exprs : List Expr) (inputs : List Plan) : StarM Plan :=
  match inputs with
  | [input] => do
    let names := Names.disambiguate (inheritedNames input.schema exprs project.schema.fields)
    let rebuilt ← input.project exprs names
    pure (if rebuilt.isIdentityProjection then input else rebuilt)
  | _ => throw (.inputCount project.kind 1 inputs.length)

/-- On the way up. -/
def leave (p : Plan) (inputs : List Plan) : StarM Plan :=
  match p with
  | .source _ _ => leaveLeaf p
  | .transform _ (.writer _) _ => leaveWriter p inputs
  | .transform _ .screen _ => leaveScreen p inputs
  | .transform _ (.project exprs _) _ => leaveProject p exprs inputs
  | p => p.keepOver inputs

end StarColumn

/-- Tells the star columns of a plan apart. Beside the plan it returns what was decided. -/
def Plan.separateStarsWith (root : Plan) : PlanM (Plan × StarState) :=
  (root.walk ⟨StarColumn.enter, StarColumn.leave⟩ : StarM Plan).run {}

/-- Tells the star columns of a plan apart. -/
def Plan.separateStars (root : Plan) : PlanM Plan := do
  let (plan, _) ← root.separateStarsWith
  pure plan

namespace Pass

/-- The pass on star columns. -/
def starColumns : Pass where
  name := "StarColumnConverter"
  enabled s := s.renameStarColumns
  run _ root := root.separateStars

end Pass

end QueryPlan
