import Concordance.Proofs.Binding.Files
import Concordance.Proofs.Workspace.Moving
import Concordance.Proofs.Workspace.Skipped

/-!
# Loads of a directory that was moved

What a load gives depends on the directory and on its name, and not on where the directory lies: a
file tree that lies at two absolute paths with the same last part is loaded as the same graph, with
the one path in place of the other wherever a path is written.

## Main definitions

* `Graph.moved`: a graph with its paths elsewhere

## Main results

* `referencesOf_moved`: references in modules with their files elsewhere
* `loadGraph_moved`: a load of the same directory at another path
-/

namespace Concordance

open Metered

/-! ### Graphs with paths elsewhere -/

/-- A place in a file that lies elsewhere. -/
def Location.moved (g : String → String) (l : Location) : Location := { l with path := g l.path }

/-- References in files that lie elsewhere. -/
def ReferenceIndex.moved (g : String → String) (ix : ReferenceIndex) : ReferenceIndex :=
  ix.map fun e => (e.1, e.2.map (Location.moved g))

/-- A project that lies elsewhere. -/
def Project.moved (g : String → String) (p : Project) : Project :=
  { p with rootPath := g p.rootPath }

/-- A graph with all its paths elsewhere. -/
def Graph.moved (g : String → String) (graph : Graph) : Graph where
  rootPath := g graph.rootPath
  projects := graph.projects.map (Project.moved g)
  moduleCount := graph.moduleCount
  skipped := graph.skipped.map g
  references := graph.references.map (ReferenceIndex.moved g)

/-- A project with its modules, with its paths elsewhere. -/
def ReadProject.moved (a b : Path) (p : ReadProject) : ReadProject where
  layout := p.layout.moved a b
  modules := p.modules.map (ModuleDecls.moved (movePrefix a.text b.text))
  skipped := p.skipped.map (movePrefix a.text b.text)

/-! ### References -/

section

variable (g : String → String)

theorem alter_moved (key : String) (change change' : Option (List Location) → List Location)
    (h : ∀ before, change' (before.map (List.map (Location.moved g))) =
      (change before).map (Location.moved g)) (ix : ReferenceIndex) :
    Table.alter key change' (ReferenceIndex.moved g ix) =
      ReferenceIndex.moved g (Table.alter key change ix) := by
  induction ix with
  | nil => exact congrArg (fun ls => [(key, ls)]) (h none)
  | cons e rest ih =>
    obtain ⟨k, ls⟩ := e
    rw [ReferenceIndex.moved, List.map_cons, Table.alter, Table.alter]
    split
    · exact congrArg (fun ls => (k, ls) :: ReferenceIndex.moved g rest) (h (some ls))
    · exact congrArg ((k, ls.map (Location.moved g)) :: ·) ih

theorem addReferences_moved (file : String) (ix : ReferenceIndex) (found : List (String × Nat)) :
    addReferences (g file) (ix.moved g) found = (addReferences file ix found).moved g := by
  rw [addReferences, addReferences]
  induction Binding.groupReferences found generalizing ix with
  | nil => rfl
  | cons e rest ih =>
    rw [List.foldl_cons, List.foldl_cons, ← ih]
    congr 1
    refine alter_moved g _ _ _ (fun before => ?_) ix
    rw [List.map_append, List.map_map]
    cases before <;> rfl

theorem referencesOfModules_moved (c : Binding.Codebase) (first : Nat) (ix : ReferenceIndex)
    (modules : List ModuleDecls) :
    referencesOfModules (c.moved g) first (ix.moved g) (modules.map (ModuleDecls.moved g)) =
      ReferenceIndex.moved g <$> referencesOfModules c first ix modules := by
  induction modules generalizing first ix with
  | nil => exact (map_pure _ _).symm
  | cons m rest ih =>
    rw [List.map_cons, referencesOfModules, referencesOfModules]
    show (if mostNested < Syntax.Node.heightAll m.source.body then _ else _) = _
    split
    · exact ih _ _
    · rw [Binding.references_moved, map_bind]
      refine bind_congr fun found => ?_
      show referencesOfModules _ _ (addReferences (g m.source.file) _ _) _ = _
      rw [addReferences_moved, ih]

theorem referencesOfProjects_moved {a b : Path} (c : Binding.Codebase) (first : Nat)
    (projects : List ReadProject) :
    referencesOfProjects (c.moved (movePrefix a.text b.text)) first
        (projects.map (ReadProject.moved a b)) =
      List.map (ReferenceIndex.moved (movePrefix a.text b.text)) <$>
        referencesOfProjects c first projects := by
  induction projects generalizing first with
  | nil =>
    rw [List.map_nil, referencesOfProjects, referencesOfProjects, map_pure]
    rfl
  | cons p rest ih =>
    have hmodules := referencesOfModules_moved (movePrefix a.text b.text) c first [] p.modules
    rw [List.map_cons, referencesOfProjects, referencesOfProjects, map_bind]
    rw [show referencesOfModules _ first [] (p.moved a b).modules = _ from hmodules, bind_map_left]
    refine bind_congr fun ix => ?_
    show referencesOfProjects _ (first + (p.modules.map _).length) _ >>= _ = _
    rw [List.length_map, ih, bind_map_left, map_bind]
    exact bind_congr fun references => (map_pure _ _).symm

end

/-- References do not depend on where files lie. -/
theorem referencesOf_moved {a b : Path} (projects : List ReadProject) :
    referencesOf (projects.map (ReadProject.moved a b)) =
      List.map (ReferenceIndex.moved (movePrefix a.text b.text)) <$> referencesOf projects := by
  have hmodules : (projects.map (ReadProject.moved a b)).flatMap ReadProject.modules =
      (projects.flatMap ReadProject.modules).map
        (ModuleDecls.moved (movePrefix a.text b.text)) := by
    rw [List.flatMap_map, List.map_flatMap]
    rfl
  have hin : referencesIn (projects.map (ReadProject.moved a b)) =
      List.map (ReferenceIndex.moved (movePrefix a.text b.text)) <$> referencesIn projects := by
    rw [referencesIn, referencesIn, hmodules, Binding.Codebase.ofModules_moved,
      Binding.Codebase.resolveBases_moved, bind_map_left, map_bind]
    exact bind_congr fun c => referencesOfProjects_moved c 0 projects
  rw [map_eq_pure_bind] at hin
  rw [referencesOf, referencesOf, hin, nameOutcome_bind]
  cases nameOutcome ((referencesIn projects).run []) <;> rfl

/-! ### Sources -/

section

variable {a b : Path} (h : a.Twins b) {l : Layout} (hbelow : a.Below l.directory)

include h hbelow

/-- A module has the same name. -/
theorem Layout.moduleName_moved {f : Path} (hf : l.Owns f) :
    (l.moved a b).moduleName (a.moved b f) = l.moduleName f := by
  obtain ⟨parts, name, rfl, -⟩ := hf
  have hname : (l.moved a b).directory.name = l.directory.name := h.name_moved hbelow
  have hfile : a.moved b (l.directory.descend (parts ++ [name])) =
      (l.moved a b).directory.descend (parts ++ [name]) := hbelow.moved_descend _
  have hway : (l.moved a b).way (a.moved b (l.directory.descend (parts ++ [name]))) =
      l.way (l.directory.descend (parts ++ [name])) := by
    rw [way, way, hfile, below_descend, below_descend]
    rfl
  rw [moduleName_eq, moduleName_eq, moduleParts, moduleParts, hway, hname]

omit h in
theorem Layout.below_of_owns {f : Path} (hf : l.Owns f) : a.Below f := by
  obtain ⟨parts, name, rfl, -⟩ := hf
  exact hbelow.descend _

theorem readModule?_moved (limits : LoadLimits) {f : SourceFile} (hf : l.Owns f.path) :
    readModule? limits (l.moved a b) (f.moved a b) =
      (readModule? limits l f).map (ModuleDecls.moved (movePrefix a.text b.text)) := by
  have hfile := Layout.below_of_owns hbelow hf
  have hname := h.name_moved hfile
  have htext := h.text_moved hfile
  have hmodule := Layout.moduleName_moved h hbelow hf
  rw [readModule?, readModule?, show (f.moved a b).octets = f.octets from rfl]
  cases readSourceText? limits f.octets with
  | none => rfl
  | some source =>
    dsimp only
    cases Syntax.parseModule source with
    | error fault => rfl
    | ok body =>
      have hsource : ({ name := (l.moved a b).moduleName (f.moved a b).path
                        file := (f.moved a b).path.text, project := (l.moved a b).name.text
                        isPackage := (f.moved a b).path.name = Layout.packageFileName
                        body } : SourceModule) =
          SourceModule.moved (movePrefix a.text b.text)
            { name := l.moduleName f.path, file := f.path.text, project := l.name.text
              isPackage := f.path.name = Layout.packageFileName, body } := by
        simp only [SourceFile.moved, hname, htext, hmodule]
        rfl
      exact congrArg some ((congrArg extractModule hsource).trans (extractModule_moved _ _))

theorem readFiles_moved (limits : LoadLimits) (hfiles : ∀ f ∈ l.files, l.Owns f.path) :
    readFiles limits (l.moved a b) = (readFiles limits l).moved a b := by
  have hmodules :
      (l.files.map (SourceFile.moved a b)).filterMap (readModule? limits (l.moved a b)) =
      (l.files.filterMap (readModule? limits l)).map
        (ModuleDecls.moved (movePrefix a.text b.text)) := by
    rw [List.filterMap_map, List.map_filterMap]
    exact List.filterMap_congr fun f hf => readModule?_moved h hbelow limits (hfiles f hf)
  have hskipped : ((l.files.map (SourceFile.moved a b)).filter fun f =>
      (readModule? limits (l.moved a b) f).isNone).map (fun f => f.path.text) =
        ((l.files.filter fun f => (readModule? limits l f).isNone).map fun f =>
          f.path.text).map (movePrefix a.text b.text) := by
    have hnone : l.files.filter ((fun f => (readModule? limits (l.moved a b) f).isNone) ∘
        SourceFile.moved a b) = l.files.filter fun f => (readModule? limits l f).isNone := by
      refine List.filter_congr fun f hf => ?_
      rw [Function.comp_apply, readModule?_moved h hbelow limits (hfiles f hf), Option.isNone_map]
    rw [List.filter_map, hnone, List.map_map, List.map_map]
    refine List.map_congr_left fun f hf => ?_
    exact h.text_moved (Layout.below_of_owns hbelow (hfiles f (List.mem_filter.mp hf).1))
  show ReadProject.mk _ _ _ = ReadProject.mk _ _ _
  rw [show (l.moved a b).files = l.files.map (SourceFile.moved a b) from rfl, hmodules, hskipped]
  rfl

theorem project_moved (limits : LoadLimits) (hfiles : ∀ f ∈ l.files, l.Owns f.path) :
    ((readFiles limits l).moved a b).project =
      (readFiles limits l).project.moved (movePrefix a.text b.text) := by
  have hkind : (l.moved a b).outputKind = l.outputKind := by
    have hnames : (l.files.map (SourceFile.moved a b)).map (fun f => f.path.name) =
        l.files.map fun f => f.path.name := by
      rw [List.map_map]
      exact List.map_congr_left fun f hf =>
        h.name_moved (Layout.below_of_owns hbelow (hfiles f hf))
    have hany (files : List SourceFile) : files.any (fun f => f.path.name = "__main__.py") =
        (files.map fun f => f.path.name).any fun name => name = "__main__.py" := by
      rw [List.any_map]
      rfl
    rw [Layout.outputKind, Layout.outputKind, hany, hany]
    show (if (l.files.map (SourceFile.moved a b)).isEmpty then none else if l.hasScripts ||
      ((l.files.map (SourceFile.moved a b)).map _).any _ then _ else _) = _
    rw [List.isEmpty_map, hnames]
  have hdeclarations : ((readFiles limits l).modules.map
      (ModuleDecls.moved (movePrefix a.text b.text))).flatMap ModuleDecls.typeSymbols =
        (readFiles limits l).modules.flatMap ModuleDecls.typeSymbols := by
    rw [List.flatMap_map]
    rfl
  simp only [ReadProject.project, Project.moved, ReadProject.moved, hdeclarations]
  rw [show (readFiles limits l).layout = l from rfl, hkind]
  simp only [Layout.moved, h.text_moved hbelow]

end

/-! ### Loads -/

/-- The graph of projects that lie elsewhere. -/
theorem loadedGraph_moved {a b : Path} {projects : List ReadProject}
    (hprojects : ∀ p ∈ projects, (p.moved a b).project =
      p.project.moved (movePrefix a.text b.text)) (references : List ReferenceIndex) :
    loadedGraph b (projects.map (ReadProject.moved a b))
        (references.map (ReferenceIndex.moved (movePrefix a.text b.text))) =
      (loadedGraph a projects references).moved (movePrefix a.text b.text) := by
  have hroot : b.text = movePrefix a.text b.text a.text := by
    have happend := movePrefix_append a.text b.text ""
    rwa [String.append_empty, String.append_empty, eq_comm] at happend
  have hall : (projects.map (ReadProject.moved a b)).map ReadProject.project =
      (projects.map ReadProject.project).map (Project.moved (movePrefix a.text b.text)) := by
    rw [List.map_map, List.map_map]
    exact List.map_congr_left hprojects
  have hcount : ((projects.map (ReadProject.moved a b)).flatMap ReadProject.modules).length =
      (projects.flatMap ReadProject.modules).length := by
    rw [List.flatMap_map, List.length_flatMap, List.length_flatMap]
    simp [ReadProject.moved]
  have hskipped : (projects.map (ReadProject.moved a b)).flatMap ReadProject.skipped =
      (projects.flatMap ReadProject.skipped).map (movePrefix a.text b.text) := by
    rw [List.flatMap_map, List.map_flatMap]
    rfl
  simp only [loadedGraph, Graph.moved, hall, hcount, hskipped, ← hroot]

/-- The graph that projects that lie elsewhere give, with their references. -/
theorem loadedGraph_referencesOf_moved {a b : Path} {projects : List ReadProject}
    (hprojects : ∀ p ∈ projects, (p.moved a b).project =
      p.project.moved (movePrefix a.text b.text)) :
    loadedGraph b (projects.map (ReadProject.moved a b)) <$>
        referencesOf (projects.map (ReadProject.moved a b)) =
      Graph.moved (movePrefix a.text b.text) <$>
        loadedGraph a projects <$> referencesOf projects := by
  rw [referencesOf_moved]
  cases referencesOf projects with
  | error e => rfl
  | ok references => exact congrArg Except.ok (loadedGraph_moved hprojects references)

/-- Directories that a load starts from are twins if they are absolute and have the same name. -/
theorem twins_workspaceDirectory {tree tree' : Entry} {root root' : String} {a b : Path}
    (hroot : workspaceDirectory tree root = .ok a) (hroot' : workspaceDirectory tree' root' = .ok b)
    (habsolute : a.isAbsolute) (habsolute' : b.isAbsolute) (hname : b.name = a.name) :
    a.Twins b := by
  have hempty {tree : Entry} {root : String} {a : Path}
      (hroot : workspaceDirectory tree root = .ok a) : a.parts = [] ↔ a.name = "" := by
    obtain ⟨p, rfl, hsub⟩ := exists_normalize_of_workspaceDirectory hroot
    have hparts : "" ∉ p.normalize.parts := fun hmem => by
      simpa [Path.ofText] using hsub (Path.foldl_takeBack_subset [] p.parts hmem)
    generalize p.normalize = a at hparts
    rcases List.eq_nil_or_concat' a.parts with hnil | ⟨front, last, hlast⟩
    · simp [Path.name, hnil]
    · rw [hlast, List.mem_append, List.mem_singleton, not_or] at hparts
      simp [Path.name, hlast, Ne.symm hparts.2]
  have hslash {tree : Entry} {root : String} {a : Path}
      (hroot : workspaceDirectory tree root = .ok a) (habsolute : a.isAbsolute) : a.root = "/" := by
    obtain ⟨p, rfl, -⟩ := exists_normalize_of_workspaceDirectory hroot
    rw [Path.normalize]
    rw [Path.isAbsolute, Path.normalize] at habsolute
    split
    · rfl
    · rename_i hp
      simp [hp] at habsolute
  refine ⟨of_decide_eq_true habsolute, ?_, hname, ?_⟩
  · rw [hslash hroot habsolute, hslash hroot' habsolute']
  · rw [hempty hroot, hempty hroot', hname]

/-- The same is left out below the same directory at another path. -/
theorem ignoreRules_moved {tree tree' : Entry} {root root' : String} {a b : Path}
    (hroot : workspaceDirectory tree root = .ok a) (hroot' : workspaceDirectory tree' root' = .ok b)
    (htree : tree'.follow? b = tree.follow? a) (patterns : List String) :
    ignoreRules tree' b patterns = (ignoreRules tree a patterns).under b := by
  have hname : IgnoreRules.fileName ≠ ".." := by decide
  rw [ignoreRules, ignoreRules,
    Entry.follow?_child (dotless_workspaceDirectory hroot) hname,
    Entry.follow?_child (dotless_workspaceDirectory hroot') hname, htree]
  rfl

/-- The same projects with the same modules. -/
theorem projectsOf_moved {tree tree' : Entry} {a b : Path} (h : a.Twins b)
    (htree : tree'.follow? b = tree.follow? a) (limits : LoadLimits) :
    let found := Layout.found (ignoreRules tree a limits.ignorePatterns) (loadVisits tree limits a)
    projectsOf tree' limits b (found.moved a b) =
      (projectsOf tree limits a found).map (ReadProject.moved a b) ∧
    ∀ p ∈ projectsOf tree limits a found,
      (p.moved a b).project = p.project.moved (movePrefix a.text b.text) := by
  intro found
  have hfound : found.Below a := Layout.below_found
  have hfiles {l : Layout} (hl : l ∈ Layout.assign a (Layout.hasSources (tree.follow? a)) found) :
      ∀ f ∈ l.files, l.Owns f.path := fun f hf => Layout.owns_of_mem_layouts hl hf
  have hbelow {l : Layout} (hl : l ∈ Layout.assign a (Layout.hasSources (tree.follow? a)) found) :
      a.Below l.directory := by
    rw [Layout.assign_eq, List.mem_mergeSort] at hl
    exact Layout.below_assigned hfound l hl
  constructor
  · rw [projectsOf, projectsOf, htree, Layout.assign_moved h _ hfound, List.map_map,
      List.map_map]
    exact List.map_congr_left fun l hl => readFiles_moved h (hbelow hl) limits (hfiles hl)
  · intro p hp
    obtain ⟨l, hl, rfl⟩ := List.mem_map.mp hp
    exact project_moved h (hbelow hl) limits (hfiles hl)

/-- **Loads of a directory that was moved.** If the same directory lies at two absolute paths with
the same last part, then a load of it at the second one ends as a load at the first one does, under
the same settings: it fails for the same reason, or it gives the same graph, in the same order, in
which every path is written with the second directory in place of the first one. -/
theorem loadGraph_moved {σ : Type} {tree tree' : Entry} {root root' : String} {a b : Path}
    (hroot : workspaceDirectory tree root = .ok a) (hroot' : workspaceDirectory tree' root' = .ok b)
    (habsolute : a.isAbsolute) (habsolute' : b.isAbsolute) (hname : b.name = a.name)
    (htree : tree'.follow? b = tree.follow? a) (limits : LoadLimits) :
    ∃ r, (loadGraph tree limits root : Metered σ Graph).Ends r ∧
      (loadGraph tree' limits root' : Metered σ Graph).Ends
        (Graph.moved (movePrefix a.text b.text) <$> r) := by
  have htwins := twins_workspaceDirectory hroot hroot' habsolute habsolute' hname
  have hrules := ignoreRules_moved hroot hroot' htree limits.ignorePatterns
  have hmoved := Layout.foundIn_visitsFrom_moved htwins
    (ignoreRules tree a limits.ignorePatterns) (tree.follow? a)
  rw [← hrules, ← htree] at hmoved
  have hvisits (rules : IgnoreRules) : Layout.visitsFrom (rules.under a) a (tree'.follow? b) =
      Layout.visitsFrom (rules.under a) a (tree.follow? a) := by rw [htree]
  rw [hvisits] at hmoved
  cases hfound : Layout.foundIn (ignoreRules tree a limits.ignorePatterns)
      (loadVisits tree limits a) with
  | error e =>
    have hends := loadGraph_ends_stages (σ := σ) limits hroot
    have hends' := loadGraph_ends_stages (σ := σ) limits hroot'
    rw [hfound] at hends
    rw [show Layout.foundIn _ (loadVisits tree' limits b) = .error e from
      hmoved.trans (congrArg (Layout.Found.moved a b <$> ·) hfound)] at hends'
    exact ⟨.error e, hends, hends'⟩
  | ok found =>
    have hends := loadGraph_ends_of_found (σ := σ) hroot hfound
    have hends' := loadGraph_ends_of_found (σ := σ) hroot'
      (hmoved.trans (congrArg (Layout.Found.moved a b <$> ·) hfound))
    obtain rfl := Layout.eq_found_of_foundIn hfound
    obtain ⟨hprojects, hproject⟩ := projectsOf_moved htwins htree limits
    refine ⟨_, hends, ?_⟩
    rw [hprojects, loadedGraph_referencesOf_moved hproject] at hends'
    exact hends'

/-- A directory named for builds above the workspace leaves nothing out. -/
theorem loadGraph_moved_annex :
    ∃ graph, (loadGraph annex {} "/ws" : Metered Unit Graph).Ends (.ok graph) ∧
      (loadGraph (.directory [("build", annex)]) {} "/build/ws" : Metered Unit Graph).Ends
        (.ok (graph.moved (movePrefix "/ws" "/build/ws"))) := by
  obtain ⟨graph, hgraph⟩ := exists_loadGraph_annex
  have hroot : workspaceDirectory (.directory [("build", annex)]) "/build/ws" =
      .ok ⟨"/", ["build", "ws"]⟩ := by decide +kernel
  obtain ⟨r, hload, hload'⟩ := loadGraph_moved (σ := Unit) workspaceDirectory_annex hroot
    (by decide) (by decide) (by decide) rfl {}
  obtain rfl := hload.unique hgraph
  exact ⟨graph, hgraph, hload'⟩

end Concordance
