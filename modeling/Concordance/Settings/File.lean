import Concordance.Settings.Basic
import Concordance.Text.Lines
import Concordance.Workspace.Files
import Concordance.Yaml.Document

/-!
# The settings file

Settings are kept in a YAML file. A file that is not there, holds nothing, does not follow the
grammar or holds no table leaves all settings as they are.

## Main definitions

* `Settings.ofOctets`: the settings of a file
* `Settings.ofTree`: the settings of the file at a path
-/

namespace Concordance.Settings

/-- The name of the file if none is given. -/
def fileName : String := ".workspace_xref.yml"

/-- The settings of a file. -/
def ofOctets (octets : List UInt8) : Except Failure Settings :=
  match Text.readText octets with
  | .error f => .error (.encoding f.message)
  | .ok cs =>
    match Yaml.read cs with
    | .ok (some (.table fields)) => merge fields
    | .ok _ => .ok {}
    | .error .malformed => .ok {}
    | .error (.failed f) => .error f

/-- The settings of the file at a path of a file tree. -/
def ofTree (tree : Entry) (p : Path) : Except Failure Settings :=
  match (tree.follow? p).bind Entry.octets? with
  | some octets => ofOctets octets
  | none => .ok {}

end Concordance.Settings
