import Concordance.Proofs.Declaration.Members
import Concordance.Proofs.Declaration.Naming
import Concordance.Proofs.Workspace.Files

/-!
# What ids tell apart

Everything that is asked of a graph goes by ids, so that classes with one id are one class to it.
The id of a class is written from the names of its project and module and its own, and it can be
read again: names of classes are words of the source, in which there is no colon, and names of
modules are put together from names of files, in which there is no slash. So classes of different
files have different ids unless two projects have one name, or files of one project clash. Neither
is excluded by a load.

## Main definitions

* `Identifies`: ids tell classes of different files apart
* `Unambiguous`: no two projects have one name, and no two files of a project clash

## Main results

* `identifies_of_unambiguous`: when ids tell classes apart, and what they are the same for
* `identifies_neighbours`: two projects with different names
* `not_always_identifies`: projects with one name
-/

namespace Concordance

open Metered

/-! ### Classes of files -/

/-- The ids of the classes in a file of a project. -/
theorem named_of_readModule? {limits : LoadLimits} {layout : Layout} {f : SourceFile}
    {m : ModuleDecls} (h : readModule? limits layout f = some m) :
    m.source.name = layout.moduleName f.path ∧ ∀ c ∈ m.classes,
      c.symbol.id =
          classId layout.name.text (layout.moduleName f.path) c.symbol.qualifiedName ∧
        ':' ∉ c.symbol.qualifiedName.toList := by
  have hparse := (source_of_readModule? h).2
  simp only [readModule?] at h
  split at h
  · cases h
  · split at h
    · cases h
      refine ⟨rfl, fun c hc => ?_⟩
      obtain ⟨hid, hnames⟩ := named_of_mem_classes hc
      exact ⟨hid, hnames ':' (by decide) (colon_notMem_of_parseModule hparse)⟩
    · cases h

theorem exists_of_mem_modules {limits : LoadLimits} {layout : Layout} {m : ModuleDecls}
    (hm : m ∈ (readFiles limits layout).modules) :
    ∃ f ∈ layout.files, readModule? limits layout f = some m :=
  List.mem_filterMap.mp hm

/-! ### Ids of a workspace -/

/-- Ids tell apart any two classes of different files. -/
def Identifies (projects : List ReadProject) : Prop :=
  ∀ p ∈ projects, ∀ p' ∈ projects, ∀ m ∈ p.modules, ∀ m' ∈ p'.modules,
    m.source.file ≠ m'.source.file →
      ∀ c ∈ m.classes, ∀ c' ∈ m'.classes, c.symbol.id ≠ c'.symbol.id

instance (projects : List ReadProject) : Decidable (Identifies projects) :=
  inferInstanceAs (Decidable (∀ p ∈ projects, ∀ p' ∈ projects, ∀ m ∈ p.modules,
    ∀ m' ∈ p'.modules, m.source.file ≠ m'.source.file →
      ∀ c ∈ m.classes, ∀ c' ∈ m'.classes, c.symbol.id ≠ c'.symbol.id))

/-- No two projects have one name, and no two files of a project clash. -/
structure Unambiguous (projects : List ReadProject) : Prop where
  names : (projects.map fun p => p.layout.name.text).Nodup
  files : ∀ p ∈ projects, ∀ f ∈ p.layout.files, ∀ f' ∈ p.layout.files, f.path ≠ f'.path →
    ¬ p.layout.Clash f.path f'.path

section

variable {tree : Entry} {limits : LoadLimits} {root : String} {directory : Path}
  (hroot : workspaceDirectory tree root = .ok directory) (htree : tree.isNamed)

include hroot

/-- A load that ends with a graph has read the projects of the workspace. -/
theorem exists_of_loadGraph_ends {graph : Graph}
    (h : (loadGraph tree limits root : Metered Unit Graph).Ends (.ok graph)) :
    ∃ references,
      graph = loadedGraph directory (loadedProjects tree limits directory) references := by
  by_cases hspoilt : ∃ v ∈ loadVisits tree limits directory, v.IsSpoilt
  · obtain ⟨v, -, -, e, -, hends⟩ := loadGraph_ends_error (σ := Unit) limits hroot hspoilt
    cases h.unique hends
  · have hends := loadGraph_ends_graph (σ := Unit) limits hroot fun v hv hs =>
      hspoilt ⟨v, hv, hs⟩
    cases hreferences : referencesOf (loadedProjects tree limits directory) with
    | error e =>
      rw [hreferences] at hends
      cases h.unique hends
    | ok references =>
      rw [hreferences] at hends
      exact ⟨references, Except.ok.inj (h.unique hends)⟩

include htree

/-- The files of a project of a workspace lie in its directory. -/
theorem owns_of_mem_loadedProjects {p : ReadProject}
    (hp : p ∈ loadedProjects tree limits directory) {f : SourceFile} (hf : f ∈ p.layout.files) :
    p.layout.Owns f.path ∧ f.path.Slashless := by
  obtain ⟨l, hl, rfl⟩ := List.mem_map.mp hp
  exact ⟨Layout.owns_of_mem_layouts hl hf,
    Layout.slashless_of_mem_layouts (slashless_workspaceDirectory hroot)
      (fun e he => Entry.isNamed_follow? htree he) hl hf⟩

/-- What is known of the classes of a workspace. -/
theorem named_of_mem_loadedProjects {p : ReadProject}
    (hp : p ∈ loadedProjects tree limits directory) {m : ModuleDecls} (hm : m ∈ p.modules) :
    '/' ∉ m.source.name.toList ∧ ∀ c ∈ m.classes,
      c.symbol.id = classId p.layout.name.text m.source.name c.symbol.qualifiedName ∧
        ':' ∉ c.symbol.qualifiedName.toList := by
  obtain ⟨l, -, rfl⟩ := List.mem_map.mp hp
  obtain ⟨f, hf, hread⟩ := exists_of_mem_modules hm
  obtain ⟨howns, hslash⟩ := owns_of_mem_loadedProjects hroot htree hp hf
  obtain ⟨hname, hclasses⟩ := named_of_readModule? hread
  rw [hname]
  exact ⟨Layout.slash_notMem_moduleName howns hslash, hclasses⟩

end

/-- **When ids tell classes apart.** In a workspace, whatever is in its files, two classes have the
same id only if their projects have one name, their modules have one name and they themselves have
one. Different files of a project are modules of one name exactly if they clash. So ids tell any two
classes of different files apart, if no two projects have one name and no two files of a project
clash. -/
theorem identifies_of_unambiguous {tree : Entry} (limits : LoadLimits) {root : String}
    {directory : Path} (hroot : workspaceDirectory tree root = .ok directory)
    (htree : tree.isNamed) :
    let projects := loadedProjects tree limits directory
    (∀ graph, (loadGraph tree limits root : Metered Unit Graph).Ends (.ok graph) →
      ∃ references, graph = loadedGraph directory projects references) ∧
    (∀ p ∈ projects, ∀ p' ∈ projects, ∀ m ∈ p.modules, ∀ m' ∈ p'.modules,
      ∀ c ∈ m.classes, ∀ c' ∈ m'.classes,
        (c.symbol.id = c'.symbol.id ↔ p.layout.name.text = p'.layout.name.text ∧
          m.source.name = m'.source.name ∧ c.symbol.qualifiedName = c'.symbol.qualifiedName)) ∧
    (∀ p ∈ projects, ∀ f ∈ p.layout.files, ∀ f' ∈ p.layout.files, f.path ≠ f'.path →
      (p.layout.moduleName f.path = p.layout.moduleName f'.path ↔
        p.layout.Clash f.path f'.path ∨ p.layout.Clash f'.path f.path)) ∧
    (Unambiguous projects → Identifies projects) := by
  intro projects
  have hids : ∀ p ∈ projects, ∀ p' ∈ projects, ∀ m ∈ p.modules, ∀ m' ∈ p'.modules,
      ∀ c ∈ m.classes, ∀ c' ∈ m'.classes,
        (c.symbol.id = c'.symbol.id ↔ p.layout.name.text = p'.layout.name.text ∧
          m.source.name = m'.source.name ∧
            c.symbol.qualifiedName = c'.symbol.qualifiedName) := by
    intro p hp p' hp' m hm m' hm' c hc c' hc'
    obtain ⟨hslash, hnamed⟩ := named_of_mem_loadedProjects hroot htree hp hm
    obtain ⟨hslash', hnamed'⟩ := named_of_mem_loadedProjects hroot htree hp' hm'
    obtain ⟨hid, hcolon⟩ := hnamed c hc
    obtain ⟨hid', hcolon'⟩ := hnamed' c' hc'
    rw [hid, hid', classId_eq_iff hslash hslash' hcolon hcolon']
  have hnames : ∀ p ∈ projects, ∀ f ∈ p.layout.files, ∀ f' ∈ p.layout.files, f.path ≠ f'.path →
      (p.layout.moduleName f.path = p.layout.moduleName f'.path ↔
        p.layout.Clash f.path f'.path ∨ p.layout.Clash f'.path f.path) := by
    intro p hp f hf f' hf' hne
    rw [Layout.moduleName_eq_iff (owns_of_mem_loadedProjects hroot htree hp hf).1
      (owns_of_mem_loadedProjects hroot htree hp hf').1]
    exact or_iff_right hne
  refine ⟨fun _ h => exists_of_loadGraph_ends hroot h, hids, hnames, fun h => ?_⟩
  intro p hp p' hp' m hm m' hm' hfile c hc c' hc' hid
  obtain ⟨hproject, hmodule, -⟩ := (hids p hp p' hp' m hm m' hm' c hc c' hc').mp hid
  obtain rfl := List.inj_on_of_nodup_map h.names hp hp' hproject
  obtain ⟨l, -, rfl⟩ := List.mem_map.mp hp
  obtain ⟨f, hf, hread⟩ := exists_of_mem_modules hm
  obtain ⟨f', hf', hread'⟩ := exists_of_mem_modules hm'
  have hne : f.path ≠ f'.path := by
    intro heq
    rw [(source_of_readModule? hread).1, (source_of_readModule? hread').1, heq] at hfile
    exact hfile rfl
  rw [(named_of_readModule? hread).1, (named_of_readModule? hread').1] at hmodule
  rcases (hnames _ hp f hf f' hf' hne).mp hmodule with hclash | hclash
  · exact h.files _ hp f hf f' hf' hne hclash
  · exact h.files _ hp f' hf' f hf hne.symm hclash

/-! ### Workspaces with two projects -/

/-- The projects of a workspace as a walk comes to them. -/
def walkedProjects (tree : Entry) (limits : LoadLimits) (directory : Path) : List Layout :=
  Layout.assigned directory (Layout.hasSources (tree.follow? directory))
    (Layout.found (ignoreRules tree directory limits.ignorePatterns)
      (loadVisits tree limits directory))

theorem loadedProjects_eq_of_pairwise {tree : Entry} {limits : LoadLimits} {directory : Path}
    (h : (walkedProjects tree limits directory).Pairwise fun a b => Layout.le a b) :
    loadedProjects tree limits directory =
      (walkedProjects tree limits directory).map (readFiles limits) :=
  congrArg (List.map (readFiles limits)) (Layout.layouts_eq_of_pairwise h)

/-- The ids of the classes in projects. -/
def classIdsOf (projects : List ReadProject) : List String :=
  projects.flatMap fun p => p.modules.flatMap fun m => m.classes.map fun c => c.symbol.id

/-- Two projects with a module and a class of one name; one has a directory for sources with a
package in it. -/
def neighbours : Entry :=
  .directory [("ws", .directory
    [("one", .directory
      [("a.py", .file (asciiOctets "class A:\n    class B:\n        pass\n")),
        ("setup.py", .file (asciiOctets "setup(name='north')\n")),
        ("src", .directory
          [("k", .directory
            [("__init__.py", .file (asciiOctets "class A:\n    pass\n")),
              ("a.py", .file (asciiOctets "class A:\n    pass\n"))])])]),
      ("two", .directory
        [("a.py", .file (asciiOctets "class A:\n    pass\n")),
          ("setup.py", .file (asciiOctets "setup(name='south')\n"))])])]

/-- The ids in it tell all classes apart. -/
theorem identifies_neighbours :
    let directory : Path := ⟨"/", ["ws"]⟩
    workspaceDirectory neighbours "/ws" = .ok directory ∧ neighbours.isNamed ∧
      classIdsOf (loadedProjects neighbours {} directory) =
        ["north/a:A.B", "north/a:A", "north/k:A", "north/k.a:A", "south/a:A"] ∧
      Identifies (loadedProjects neighbours {} directory) := by
  intro directory
  have hroot : workspaceDirectory neighbours "/ws" = .ok directory := by decide +kernel
  have htree : neighbours.isNamed := by decide +kernel
  have hprojects : loadedProjects neighbours {} directory =
      (walkedProjects neighbours {} directory).map (readFiles {}) :=
    loadedProjects_eq_of_pairwise (by decide +kernel)
  have hnames : ∀ p ∈ loadedProjects neighbours {} directory, ∀ f ∈ p.layout.files,
      ∀ f' ∈ p.layout.files, f.path ≠ f'.path →
        p.layout.moduleName f.path ≠ p.layout.moduleName f'.path := by
    rw [hprojects]
    decide +kernel
  refine ⟨hroot, htree, by rw [hprojects]; decide +kernel, ?_⟩
  obtain ⟨-, -, -, hidentifies⟩ := identifies_of_unambiguous {} hroot htree
  refine hidentifies ⟨by rw [hprojects]; decide +kernel, fun p hp f hf f' hf' hne hclash => ?_⟩
  exact hnames p hp f hf f' hf' hne hclash.moduleName_eq

/-- Two projects of one name, with a module and a class of one name. -/
def namesakes : Entry :=
  .directory [("ws", .directory
    [("one", .directory
      [("a.py", .file (asciiOctets "class A:\n    def f(self):\n        self.f()\n")),
        ("setup.py", .file (asciiOctets "setup(name='p')\n"))]),
      ("two", .directory
        [("a.py", .file (asciiOctets "class A:\n    def g(self):\n        self.g()\n")),
          ("setup.py", .file (asciiOctets "setup(name='p')\n"))])])]

/-- Classes of different files of a workspace that is loaded may have one id. -/
theorem not_always_identifies :
    ¬ ∀ (tree : Entry) (limits : LoadLimits) (root : String) (directory : Path),
      tree.isNamed → workspaceDirectory tree root = .ok directory →
        (∃ graph, (loadGraph tree limits root : Metered Unit Graph).Ends (.ok graph)) →
          Identifies (loadedProjects tree limits directory) := by
  intro hall
  have hroot : workspaceDirectory namesakes "/ws" = .ok ⟨"/", ["ws"]⟩ := by decide +kernel
  have hlegible : ∀ v ∈ loadVisits namesakes {} ⟨"/", ["ws"]⟩, ¬ v.IsSpoilt := by decide +kernel
  have hprojects : loadedProjects namesakes {} ⟨"/", ["ws"]⟩ =
      (walkedProjects namesakes {} ⟨"/", ["ws"]⟩).map (readFiles {}) :=
    loadedProjects_eq_of_pairwise (by decide +kernel)
  have hreadable : ∀ p ∈ loadedProjects namesakes {} ⟨"/", ["ws"]⟩, ∀ d ∈ p.modules,
      Binding.ModuleReadable d := by
    rw [hprojects]
    decide +kernel
  obtain ⟨references, hreferences⟩ := exists_referencesOf hreadable
  have hends := loadGraph_ends_graph (σ := Unit) {} hroot hlegible
  rw [hreferences] at hends
  have hids := hall namesakes {} "/ws" _ (by decide +kernel) hroot ⟨_, hends⟩
  rw [hprojects] at hids
  exact absurd hids (by decide +kernel)

end Concordance
