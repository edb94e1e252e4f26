import Concordance.Decimal.Shortest
import Concordance.Json.Reader
import Concordance.Syntax.Source
import Concordance.Text.Quoted
import Concordance.Text.Utf8
import Concordance.Toml.Document
import Concordance.Workspace.Files

/-!
# Project metadata

The name of a project and whether it has scripts, as its metadata files say: a TOML file, and a
set-up script of which only literal arguments of calls are looked at. A file that does not follow
its grammar says nothing. What is not caught is a failure of the whole search: octets that are no
text or a table of the wrong shape in the first file, and the null character in the second.

## Main definitions

* `Metadata`: what is known about a project
* `Metadata.ofToml`, `Metadata.ofScript`: what each of the files says
* `Metadata.ofDirectory`: what a project directory says
-/

namespace Concordance

open Syntax

/-- What is known about a project. -/
structure Metadata where
  name : Option Toml.Value := none
  hasScripts : Bool := false

namespace Metadata

/-- The name of the metadata file in TOML. -/
def tomlName : String := "pyproject.toml"

/-- The name of the set-up script. -/
def scriptName : String := "setup.py"

/-- The names of files that make a directory a project. -/
def fileNames : List String := [tomlName, scriptName]

/-! ### TOML -/

/-- The value under a key of a table; an empty table if it is missing. -/
def tableIn (v : Toml.Value) (key : String) : Except Failure Toml.Value :=
  (v.field? key).map fun found => found.getD (.table [])

/-- A value that has content. -/
def nonEmpty (v : Option Toml.Value) : Option Toml.Value := v.filter fun v => !v.isEmpty

/-- The first value with content among those under keys of tables, asked in order. -/
def firstOf : List (Toml.Value × String) → Except Failure (Option Toml.Value)
  | [] => .ok none
  | (table, key) :: rest => do
    match nonEmpty (← table.field? key) with
    | some v => pure (some v)
    | none => firstOf rest

/-- What a document says. -/
def ofFields (document : Toml.Value) : Except Failure Metadata := do
  let project ← tableIn document "project"
  let poetry ← tableIn (← tableIn document "tool") "poetry"
  let name ← firstOf [(project, "name"), (poetry, "name")]
  let scripts ← firstOf [(project, "scripts"), (project, "gui-scripts"), (poetry, "scripts")]
  pure ⟨name, scripts.isSome⟩

/-- What a TOML file says. -/
def ofToml (octets : List UInt8) : Except Failure Metadata :=
  match Text.Utf8.decode octets with
  | .error f => .error (.encoding f.message)
  | .ok cs =>
    match Toml.parse cs with
    | .ok fields => ofFields (.table fields)
    | .error .malformed => ofFields (.table [])
    | .error (.longNumber digits) => .error (.value (Decimal.tooLongToRead digits))

/-! ### Set-up scripts -/

/-- A literal as a text. Half of a surrogate pair is shown as the replacement character. -/
def textOf : Literal → Except Failure String
  | .none => .ok "None"
  | .true => .ok "True"
  | .false => .ok "False"
  | .ellipsis => .ok "Ellipsis"
  | .int n =>
    if Decimal.isWritable n then .ok (toString n) else .error (.value Decimal.tooLongToWrite)
  | .decimal digits exponent => .ok (Decimal.text (Json.floatOf false digits exponent))
  | .imaginary digits exponent =>
    let s := (Decimal.text (Json.floatOf false digits exponent)).toList
    let short := if ['0', '.'].isPrefixOf s.reverse then s.dropLast.dropLast else s
    .ok (String.ofList short ++ "j")
  | .string s => .ok s
  | .halved points => .ok (String.ofList (points.map fun n => (Text.charOf? n).getD '\uFFFD'))
  | .bytes octets => .ok (Text.quoteOctets octets)

/-- Whether a call is one of the set-up function. -/
def isSetup : Node → Bool
  | .name _ id _ => id = "setup"
  | .member _ _ attr _ => attr = "setup"
  | _ => false

/-- Whether an argument declares scripts that are run from the console or a desktop. -/
def declaresScripts : Node → Bool
  | .dict _ keys _ => keys.any fun k =>
    match k with
    | .constant _ (.string s) => s = "console_scripts" || s = "gui_scripts"
    | _ => false
  | _ => false

/-- Add what an argument of a call says. -/
def addArgument (m : Metadata) (n : Node) : Except Failure Metadata :=
  match n with
  | .keyword _ (some name) value =>
    match name, value with
    | "name", .constant _ literal =>
      (textOf literal).map fun s => { m with name := some (.string s) }
    | "scripts", _ => .ok { m with hasScripts := true }
    | "entry_points", value => .ok { m with hasScripts := m.hasScripts || declaresScripts value }
    | _, _ => .ok m
  | _ => .ok m

/-- Add what a node says, if it is a call of the set-up function. -/
def addCall (m : Metadata) (n : Node) : Except Failure Metadata :=
  match n with
  | .call _ callee _ keywords => if isSetup callee then keywords.foldlM addArgument m else .ok m
  | _ => .ok m

/-- The nodes of statements, level by level. -/
def nodesOf (body : List Node) : List Node := Node.breadthFirstAll body

/-- What a set-up script says. -/
def ofScript (octets : List UInt8) : Except Failure Metadata :=
  match Text.Utf8.decode octets with
  | .error _ => .ok {}
  | .ok cs =>
    match parseModule (String.ofList cs) with
    | .ok body => (nodesOf body).foldlM addCall {}
    | .error .malformed => .ok {}
    | .error .nullCharacter => .error (.value nullCharacterText)

/-! ### Directories -/

/-- What the metadata files of a directory say; the TOML file comes first. -/
def ofDirectory (directory : Entry) : Except Failure Metadata := do
  let first ← match directory.fileIn? tomlName with
    | some octets => ofToml octets
    | none => pure {}
  let second ← match directory.fileIn? scriptName with
    | some octets => ofScript octets
    | none => pure {}
  pure ⟨first.name.or (nonEmpty second.name), first.hasScripts || second.hasScripts⟩

end Metadata

end Concordance
