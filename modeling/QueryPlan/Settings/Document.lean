import QueryPlan.Error
import QueryPlan.Settings
import QueryPlan.Toml.Document

/-!
# Settings as a document

Settings are written as a TOML 1.1 document with one line per switch. When a document is read,
a switch that it does not mention keeps its default, keys that are no switches are passed
over, and a switch that is neither true nor false is refused, as is a text that is no
document at all.
-/

namespace QueryPlan.Settings

/-- Moves the switches that the members mention. -/
def ofMembers (m : Toml.Members) (s : Settings) : List Switch → Except PlanError Settings
  | [] => .ok s
  | switch :: rest =>
    match m.lookup switch.key with
    | none => ofMembers m s rest
    | some (.bool on) => ofMembers m (s.set switch on) rest
    | some _ => .error (.settingsRejected (switch.key ++ " is neither true nor false"))

/-- Reads settings from a document. -/
def ofText (text : String) : Except PlanError Settings :=
  match Toml.document? text with
  | none => .error (.settingsRejected "the text is no document")
  | some m => ofMembers m {} Switch.all

/-- Writes settings as a document, a line for each switch. -/
def toText (s : Settings) : String :=
  String.join (Switch.all.map fun switch =>
    switch.key ++ " = " ++ (if s.get switch then "true" else "false") ++ "\n")

/-- What became of the attempt to read a file. -/
inductive FileContent where
  | missing
  | bytes (content : ByteArray)

/-- Reads settings from what a file contained. The file must be there and hold text. -/
def ofFile (path : String) : FileContent → Except PlanError Settings
  | .missing => .error (.settingsRejected (path ++ ": No such file or directory (os error 2)"))
  | .bytes content =>
    match String.fromUTF8? content with
    | none => .error (.settingsRejected (path ++ ": stream did not contain valid UTF-8"))
    | some text => ofText text

end QueryPlan.Settings
