import Concordance.Cancellation
import Concordance.Declaration.Module
import Concordance.Graph
import Concordance.Toml.Shown
import Concordance.Workspace.Ignore
import Concordance.Workspace.Metadata

/-!
# Discovery of projects

The projects below a root, with their source files. A directory with a metadata file is a project,
and each source file belongs to the nearest one around it. Source files that none lies around belong
to a project of the root that is named after it. Directories that are left out are not entered.

## Main definitions

* `Layout`: a project before its sources are read
* `Layout.moduleName`: the name of the module that a file is
* `Layout.ofTree`: the projects of a file tree
-/

namespace Concordance

/-- A source file. -/
structure SourceFile where
  path : Path
  octets : List UInt8

/-- A project before its sources are read. -/
structure Layout where
  name : Toml.Value
  directory : Path
  hasScripts : Bool := false
  /-- Whether its sources have a directory of their own. -/
  hasSourceDirectory : Bool := false
  files : List SourceFile := []

namespace Layout

/-- The name of the directory for sources. -/
def sourceDirectoryName : String := "src"

/-- The directory that modules are named from. -/
def sourceRoot (l : Layout) : Path :=
  if l.hasSourceDirectory then l.directory.child sourceDirectoryName else l.directory

/-- What a project builds: nothing without sources, a program if it has scripts or can be run. -/
def outputKind (l : Layout) : Option OutputKind :=
  if l.files.isEmpty then none
  else if l.hasScripts || l.files.any fun f => f.path.name = "__main__.py" then
    some .consoleApplication
  else some .library

/-- The file that stands for the package of its directory. -/
def packageFileName : String := "__init__.py"

/-- The name of the module that a file is: its path from the source root, otherwise from the
directory of the project, without the suffix. -/
def moduleName (l : Layout) (file : Path) : String :=
  let below := ((file.relativeTo? l.sourceRoot).or (file.relativeTo? l.directory)).getD file
  let parts := below.withoutSuffix.parts
  let parts := if parts.getLast? = some "__init__" then parts.dropLast else parts
  if parts.isEmpty then l.directory.name else joinDots parts

/-! ### Walking -/

/-- What a walk finds: projects, and source files with the directory of the project that each
belongs to. -/
structure Found where
  projects : List Layout := []
  files : List (Option Path × SourceFile) := []

/-- Two finds together. -/
def Found.append (a b : Found) : Found := ⟨a.projects ++ b.projects, a.files ++ b.files⟩

/-- Whether a file is a source of a project. -/
def isSourceName (name : String) : Bool :=
  name.endsWith ".py" && name ≠ Metadata.scriptName

/-- The source files directly in a directory that are not left out. -/
def sourcesIn (rules : IgnoreRules) (directory : Path) (entries : List (String × Entry)) :
    List SourceFile :=
  entries.filterMap fun (name, e) =>
    match e with
    | .file octets =>
      let path := directory.child name
      if isSourceName name && !rules.ignores path then some ⟨path, octets⟩ else none
    | .directory _ => none

/-- Whether a directory is a project. -/
def isProject (entries : List (String × Entry)) : Bool :=
  entries.any fun (name, e) => Metadata.fileNames.contains name && !e.isDirectory

/-- The project that a directory is. -/
def ofDirectory (directory : Path) (entries : List (String × Entry)) : Except Failure Layout := do
  let m ← Metadata.ofDirectory (.directory entries)
  pure
    { name := m.name.getD (.string directory.name), directory, hasScripts := m.hasScripts
      hasSourceDirectory :=
        ((Entry.directory entries).child? sourceDirectoryName).any Entry.isDirectory }

mutual

/-- Walk through a directory that lies within the project of `owner`. The meter is looked at once
for each directory. -/
def walk {σ : Type} (rules : IgnoreRules) (owner : Option Path) (directory : Path) :
    Entry → Metered σ Found
  | .file _ => pure {}
  | .directory entries => do
    checkpoint
    let own ←
      if isProject entries then
        match ofDirectory directory entries with
        | .ok l => pure [l]
        | .error e => throw e
      else pure []
    let owner := if own.isEmpty then owner else some directory
    let here : Found := ⟨own, (sourcesIn rules directory entries).map fun f => (owner, f)⟩
    return here.append (← walkAll rules owner directory entries)

/-- Walk through the directories of a directory that are not left out. -/
def walkAll {σ : Type} (rules : IgnoreRules) (owner : Option Path) (directory : Path) :
    List (String × Entry) → Metered σ Found
  | [] => pure {}
  | (name, e) :: rest => do
    let path := directory.child name
    let found ←
      if e.isDirectory && !rules.ignores path then walk rules owner path e else pure {}
    return found.append (← walkAll rules owner directory rest)

end

/-- The files of a project among those found. -/
def filesOf (owner : Option Path) (found : Found) : List SourceFile :=
  found.files.filterMap fun f => if f.1 = owner then some f.2 else none

/-- Order of projects: by the directory. -/
def le (a b : Layout) : Bool := decide (a.directory.text ≤ b.directory.text)

/-- Give each project its files, and the files without one to the root. -/
def assign (root : Path) (hasSourceDirectory : Bool) (found : Found) : List Layout :=
  let owned := found.projects.map fun l => { l with files := filesOf (some l.directory) found }
  let loose := filesOf none found
  let projects :=
    if loose.isEmpty then owned
    else owned ++
      [{ name := .string root.name, directory := root, hasSourceDirectory, files := loose }]
  projects.mergeSort le

/-- The projects below a root, which is a directory or does not exist. -/
def ofTree {σ : Type} (rules : IgnoreRules) (root : Path) (tree : Option Entry) :
    Metered σ (List Layout) := do
  match tree with
  | none => pure []
  | some e =>
    let found ← walk rules none root e
    pure (assign root ((e.child? sourceDirectoryName).any Entry.isDirectory) found)

end Layout

end Concordance
