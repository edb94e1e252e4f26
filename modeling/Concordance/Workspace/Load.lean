import Concordance.Binding.References
import Concordance.Workspace.Discovery

/-!
# Loading

A load turns a file tree into a graph: projects are discovered, their sources read and parsed, base
classes found and references collected. Sources that are too large, too long or do not follow the
grammar are skipped. The meter is looked at for each directory, for each file before it is read and
for each module before its references are collected.

## Main definitions

* `LoadLimits`: what is skipped
* `readSourceText?`: the text of a source file
* `workspaceDirectory`: the directory that a root stands for
* `loadGraph`: a load
-/

namespace Concordance

/-- What a load skips: files by their paths, and sources by their size and number of lines. -/
structure LoadLimits where
  ignorePatterns : List String := []
  mostBytes : Int := 10485760
  mostLines : Int := 20000

/-! ### Sources -/

/-- The number of lines of a file; a last line without an end counts. -/
def lineCount (octets : List UInt8) : Nat :=
  octets.count 10 + (if octets.isEmpty || octets.getLast? = some 10 then 0 else 1)

/-- The text of a file: in UTF-8 if it is, otherwise one character for each octet. -/
def textOfOctets (octets : List UInt8) : String :=
  match Text.Utf8.decode octets with
  | .ok cs => String.ofList cs
  | .error _ => String.ofList (octets.map fun b => Char.ofNat b.toNat)

/-- The text of a source file unless it is too large or too long. -/
def readSourceText? (limits : LoadLimits) (octets : List UInt8) : Option String :=
  if limits.mostBytes < octets.length || limits.mostLines < lineCount octets then none
  else some (textOfOctets octets)

/-- The module that a source file of a project is, unless it is skipped. -/
def readModule? (limits : LoadLimits) (layout : Layout) (file : SourceFile) :
    Option ModuleDecls :=
  match readSourceText? limits file.octets with
  | none => none
  | some source =>
    match Syntax.parseModule source with
    | .ok body =>
      some (extractModule
        { name := layout.moduleName file.path, file := file.path.text
          project := layout.name.text
          isPackage := file.path.name = Layout.packageFileName, body })
    | .error _ => none

/-- A project with its modules and the files that were skipped. -/
structure ReadProject where
  layout : Layout
  modules : List ModuleDecls := []
  skipped : List String := []

/-- Read the source files of a project. -/
def readProject {σ : Type} (limits : LoadLimits) (layout : Layout) : Metered σ ReadProject :=
  layout.files.foldlM (fun p file => do
    checkpoint
    pure <| match readModule? limits layout file with
      | some m => { p with modules := p.modules ++ [m] }
      | none => { p with skipped := p.skipped ++ [file.path.text] }) { layout }

/-! ### References -/

/-- Modules that are nested more deeply than this have no references collected. -/
def mostNested : Nat := 480

/-- Work on names with the answers kept so far. -/
def resolveWith {σ α : Type} (work : Binding.Resolve α) (cache : Binding.Cache) :
    Metered σ (α × Binding.Cache) :=
  match work.run cache with
  | (.ok a, cache) => pure (a, cache)
  | (.error f, _) => throw f.failure

/-- Add the references found in a file to those of a project. -/
def addReferences (file : String) (ix : ReferenceIndex) (found : List (String × Nat)) :
    ReferenceIndex :=
  (Binding.groupReferences found).foldl (fun ix (id, lines) =>
    Table.alter id (fun before =>
      before.getD [] ++ lines.map fun (n : Nat) => (⟨file, n, true⟩ : Location)) ix) ix

/-- Collect the references in modules with the indices from `first` on. -/
def collectModules {σ : Type} (c : Binding.Codebase) :
    (first : Nat) → ReferenceIndex → Binding.Cache → List ModuleDecls →
      Metered σ (ReferenceIndex × Binding.Cache)
  | _, ix, cache, [] => pure (ix, cache)
  | first, ix, cache, m :: rest => do
    checkpoint
    if mostNested < Syntax.Node.heightAll m.source.body then
      collectModules c (first + 1) ix cache rest
    else
      let (found, cache) ← resolveWith (Binding.references c first) cache
      collectModules c (first + 1) (addReferences m.source.file ix found) cache rest

/-- Collect the references in projects whose modules have the indices from `first` on. -/
def collectProjects {σ : Type} (c : Binding.Codebase) :
    (first : Nat) → Binding.Cache → List ReadProject → Metered σ (List ReferenceIndex)
  | _, _, [] => pure []
  | first, cache, p :: rest => do
    let (ix, cache) ← collectModules c first [] cache p.modules
    return ix :: (← collectProjects c (first + p.modules.length) cache rest)

/-! ### Loads -/

/-- The directory that a root stands for; a metadata file stands for the directory around it. -/
def workspaceDirectory (tree : Entry) (root : String) : Except Failure Path :=
  let given := Path.ofText root
  let p :=
    if tree.isFileAt given && Metadata.fileNames.contains given.name then given.parent else given
  match tree.follow? p with
  | none => .error (.load ("Workspace root does not exist: " ++ root) root)
  | some (.file _) => .error (.load ("Workspace root is not a directory: " ++ root) root)
  | some (.directory _) => .ok p.normalize

/-- The rules by which files below a root are left out. -/
def ignoreRules (tree : Entry) (root : Path) (patterns : List String) : IgnoreRules :=
  let file := (tree.follow? (root.child IgnoreRules.fileName)).bind Entry.octets?
  { root, patterns, filePatterns := (file.map IgnoreRules.patternsOf).getD [] }

/-- The project of a graph. -/
def ReadProject.project (p : ReadProject) : Project :=
  { name := p.layout.name.answer, kind := p.layout.outputKind.map OutputKind.name
    declarations := p.modules.flatMap ModuleDecls.typeSymbols
    rootPath := p.layout.directory.text }

/-- Load the workspace at a root of a file tree. -/
def loadGraph {σ : Type} (tree : Entry) (limits : LoadLimits) (root : String) :
    Metered σ Graph := do
  match workspaceDirectory tree root with
  | .error e => throw e
  | .ok directory =>
    let rules := ignoreRules tree directory limits.ignorePatterns
    let layouts ← Layout.ofTree rules directory (tree.follow? directory)
    let projects ← layouts.mapM (readProject limits)
    let modules := projects.flatMap ReadProject.modules
    let (c, cache) ← resolveWith (Binding.Codebase.ofModules modules).resolveBases []
    let references ← collectProjects c 0 cache projects
    pure
      { rootPath := directory.text, projects := projects.map ReadProject.project
        moduleCount := modules.length, skipped := projects.flatMap ReadProject.skipped
        references }

end Concordance
