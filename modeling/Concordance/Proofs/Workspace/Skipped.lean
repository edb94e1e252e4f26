import Concordance.Proofs.Binding.Provenance
import Concordance.Proofs.Workspace.Growing

/-!
# Files that change nothing else

A source file that a load skips leaves everything else as it is. It does take part in what is found:
its project gets one more file, and if it is the first one that no project lies around, then there
is one more project. But a file that is skipped is no module, so names mean what they meant before,
and a project without modules declares nothing and refers to nothing.

## Main definitions

* `Graph.contents`: what a graph says about its projects
* `Graph.Skips`: graphs that differ in a file that is skipped

## Main results

* `referencesOf_congr`, `referencesOf_insert`: references depend on modules alone
* `loadGraph_added`: adding a file that is skipped
-/

namespace Concordance

open Metered

/-! ### References with one more project -/

open Binding in
theorem yields_referencesOfProjects (c : Codebase) (first : Nat) (projects : List ReadProject) :
    Yields (referencesOfProjects c first projects) fun references =>
      references.length = projects.length := by
  induction projects generalizing first with
  | nil => exact yields_pure rfl
  | cons p rest ih =>
    refine yields_bind fun ix => (ih _).bind fun references hlength => yields_pure ?_
    rw [List.length_cons, List.length_cons, hlength]

/-- There is an index of references for each project. -/
theorem length_of_referencesOf {projects : List ReadProject} {references : List ReferenceIndex}
    (h : referencesOf projects = .ok references) : references.length = projects.length := by
  have hyields : Binding.Yields (referencesIn projects) fun references =>
      references.length = projects.length :=
    Binding.yields_bind fun c => yields_referencesOfProjects c 0 projects
  rw [referencesOf] at h
  rcases hran : (referencesIn projects).run [] with ⟨_ | references', cache⟩
  · rw [hran] at h
    cases h
  · rw [hran] at h
    cases h
    exact hyields _ _ _ hran

/-- References are found in modules, whatever else there is to projects. -/
theorem referencesOf_congr {projects projects' : List ReadProject}
    (h : projects'.map ReadProject.modules = projects.map ReadProject.modules) :
    referencesOf projects' = referencesOf projects := by
  have hall (c : Binding.Codebase) (first : Nat) :
      referencesOfProjects c first projects' = referencesOfProjects c first projects := by
    induction projects generalizing projects' first with
    | nil =>
      obtain rfl := List.map_eq_nil_iff.mp h
      rfl
    | cons p rest ih =>
      obtain ⟨p', rest', rfl, hp, hrest⟩ := List.map_eq_cons_iff.mp h
      rw [referencesOfProjects, referencesOfProjects, hp]
      simp only [ih hrest]
  have hmodules : projects'.flatMap ReadProject.modules = projects.flatMap ReadProject.modules := by
    rw [List.flatMap_def, List.flatMap_def, h]
  rw [referencesOf, referencesOf, referencesIn, referencesIn, hmodules]
  simp only [hall]

/-- In a project without modules there are no references, and it does not matter for the others. -/
theorem referencesOfProjects_insert (c : Binding.Codebase) (first : Nat) {q : ReadProject}
    (hq : q.modules = []) (front back : List ReadProject) :
    referencesOfProjects c first (front ++ q :: back) =
      (fun references => references.take front.length ++ [] :: references.drop front.length) <$>
        referencesOfProjects c first (front ++ back) := by
  induction front generalizing first with
  | nil =>
    rw [List.nil_append, List.nil_append, referencesOfProjects, hq, referencesOfModules, pure_bind,
      map_eq_pure_bind]
    rfl
  | cons p front ih =>
    rw [List.cons_append, List.cons_append, referencesOfProjects, referencesOfProjects, map_bind]
    refine bind_congr fun ix => ?_
    rw [ih, bind_map_left, map_bind]
    exact bind_congr fun references => (map_pure _ _).symm

theorem referencesOf_insert {q : ReadProject} (hq : q.modules = []) (front back : List ReadProject)
    {references : List ReferenceIndex} (h : referencesOf (front ++ back) = .ok references) :
    referencesOf (front ++ q :: back) =
      .ok (references.take front.length ++ [] :: references.drop front.length) := by
  have hin : referencesIn (front ++ q :: back) =
      (fun references => references.take front.length ++ [] :: references.drop front.length) <$>
        referencesIn (front ++ back) := by
    simp only [referencesIn, referencesOfProjects_insert _ _ hq, map_bind, List.flatMap_append,
      List.flatMap_cons, hq, List.nil_append]
  rw [map_eq_pure_bind] at hin
  rw [referencesOf] at h ⊢
  rw [hin, nameOutcome_bind]
  rcases hran : (referencesIn (front ++ back)).run [] with ⟨_ | references', cache⟩
  · rw [hran] at h
    cases h
  · rw [hran] at h
    cases h
    rfl

/-! ### Graphs -/

/-- What a graph says about a project: its name, its directory, what it declares and the references
that were found in it. -/
structure Graph.Content where
  name : Json.Value
  rootPath : String
  declarations : List Symbol
  references : ReferenceIndex

/-- What a graph says about a project with an index of references. -/
def Graph.content (p : Project) (references : ReferenceIndex) : Graph.Content where
  name := p.name
  rootPath := p.rootPath
  declarations := p.declarations
  references

/-- What a graph says about its projects. -/
def Graph.contents (g : Graph) : List Graph.Content :=
  List.zipWith Graph.content g.projects g.references

/-- The second graph is the first one with one more file at a path, which is skipped. -/
structure Graph.Skips (path : String) (g g' : Graph) : Prop where
  rootPath : g'.rootPath = g.rootPath
  moduleCount : g'.moduleCount = g.moduleCount
  skipped : g'.skipped = g.skipped ∨ OneMore path g.skipped g'.skipped
  contents : g'.contents = g.contents ∨
    ∃ extra, extra.declarations = [] ∧ extra.references = [] ∧ OneMore extra g.contents g'.contents
  /-- There is an index of references for each project. -/
  length : g.references.length = g.projects.length
  length' : g'.references.length = g'.projects.length

section

variable {limits : LoadLimits} {f : SourceFile} (hbad : f.IsBad limits)

include hbad

/-- A bad file is no module of its project, and it is skipped there. -/
theorem readFiles_oneMore {l : Layout} {files : List SourceFile} (h : OneMore f l.files files) :
    (readFiles limits { l with files }).modules = (readFiles limits l).modules ∧
      OneMore f.path.text (readFiles limits l).skipped
        (readFiles limits { l with files }).skipped := by
  have hnone : readModule? limits l f = none := readModule?_eq_none_iff.mpr hbad
  refine ⟨h.filterMap_eq hnone, ?_⟩
  have hskipped (files : List SourceFile) : (readFiles limits { l with files }).skipped =
      (files.filter fun f => (readModule? limits l f).isNone).map fun f => f.path.text := rfl
  obtain ⟨front, back, hfiles, rfl⟩ := h
  rw [← show { l with files := l.files } = l from rfl, hskipped, hskipped, hfiles]
  refine OneMore.map (x := f) ⟨_, _, List.filter_append .., ?_⟩ _
  rw [List.filter_append, List.filter_cons_of_pos (by rw [hnone]; rfl)]

end

theorem contents_loadedGraph (directory : Path) (projects : List ReadProject)
    (references : List ReferenceIndex) :
    (loadedGraph directory projects references).contents =
      List.zipWith (fun content ix => content ix)
        (projects.map fun p => Graph.content p.project) references := by
  rw [Graph.contents, loadedGraph, List.zipWith_map_left, List.zipWith_map_left]

/-- The graph of projects of which one has one more file, which is skipped. -/
theorem skips_loadedGraph {limits : LoadLimits} {f : SourceFile} (hbad : f.IsBad limits)
    {layouts layouts' : List Layout} (h : Layout.Grown f layouts layouts') (directory : Path)
    {references : List ReferenceIndex}
    (hreferences : referencesOf (layouts.map (readFiles limits)) = .ok references) :
    ∃ references', referencesOf (layouts'.map (readFiles limits)) = .ok references' ∧
      Graph.Skips f.path.text (loadedGraph directory (layouts.map (readFiles limits)) references)
        (loadedGraph directory (layouts'.map (readFiles limits)) references') := by
  have hlengths {projects : List ReadProject} {references : List ReferenceIndex}
      (h : referencesOf projects = .ok references) :
      references.length = (projects.map ReadProject.project).length :=
    (length_of_referencesOf h).trans (List.length_map _).symm
  cases h with
  | same =>
    exact ⟨references, hreferences, rfl, rfl, .inl rfl, .inl rfl, hlengths hreferences,
      hlengths hreferences⟩
  | @file l files front back h =>
    obtain ⟨hmodules, hskipped⟩ := readFiles_oneMore hbad h
    have hsame : ((front ++ { l with files } :: back).map (readFiles limits)).map
        ReadProject.modules = ((front ++ l :: back).map (readFiles limits)).map
          ReadProject.modules := by simp [hmodules]
    have hreferences' := (referencesOf_congr hsame).trans hreferences
    refine ⟨references, hreferences', rfl, ?_, .inr ?_, .inl ?_, hlengths hreferences,
      hlengths hreferences'⟩
    · simp only [loadedGraph, List.flatMap_def, hsame]
    · simp only [loadedGraph, List.map_append, List.map_cons, List.flatMap_append,
        List.flatMap_cons]
      exact (hskipped.append_right _).append_left _
    · have hproject : Graph.content (readFiles limits { l with files }).project =
          Graph.content (readFiles limits l).project := by
        funext ix
        simp only [Graph.content, ReadProject.project, hmodules]
        rfl
      simp [contents_loadedGraph, hproject]
  | @project l front back h =>
    have hnone : readModule? limits l f = none := readModule?_eq_none_iff.mpr hbad
    have hmodules : (readFiles limits l).modules = [] := by simp [readFiles, h, hnone]
    have hskipped : (readFiles limits l).skipped = [f.path.text] := by simp [readFiles, h, hnone]
    rw [List.map_append] at hreferences ⊢
    rw [List.map_append, List.map_cons]
    have hreferences' := referencesOf_insert hmodules _ _ hreferences
    refine ⟨_, hreferences', rfl, ?_, .inr ?_, .inr ?_, hlengths hreferences,
      hlengths hreferences'⟩
    · simp [loadedGraph, hmodules]
    · simp only [loadedGraph, List.flatMap_append, List.flatMap_cons, hskipped]
      exact ⟨_, _, rfl, rfl⟩
    · refine ⟨Graph.content (readFiles limits l).project [], ?_, rfl, ?_⟩
      · simp [Graph.content, ReadProject.project, hmodules]
      · have hfront : (front.map (readFiles limits)).length ≤ references.length := by
          rw [length_of_referencesOf hreferences]
          simp
        have hsplit := List.take_append_drop (front.map (readFiles limits)).length references
        have hbefore := List.length_take_of_le hfront
        generalize references.take (front.map (readFiles limits)).length = before,
          references.drop (front.map (readFiles limits)).length = after at hsplit hbefore ⊢
        subst hsplit
        simp only [contents_loadedGraph, List.map_append, List.map_cons]
        rw [List.zipWith_append (by simpa using hbefore.symm),
          List.zipWith_append (by simpa using hbefore.symm)]
        exact ⟨_, _, rfl, rfl⟩

theorem hasSources_added {name : String} {octets : List UInt8} {way : List String} {e e' : Entry}
    (h : Entry.Added name octets way e e') (hname : Layout.isSourceName name) :
    Layout.hasSources (some e') = Layout.hasSources (some e) := by
  have hchild := h.seen_child? Layout.sourceDirectoryName
  rw [Layout.hasSources, Layout.hasSources, Option.bind_some, Option.bind_some]
  generalize e.child? _ = found, e'.child? _ = found' at hchild
  cases hchild with
  | same => rfl
  | added _ h => rw [Option.any_some, Option.any_some, h.isDirectory.1, h.isDirectory.2]
  | fresh h => exact absurd h.2.symm (Layout.ne_of_isSourceName hname).2.2

/-- A walk from the directory of a workspace finds what it found before and the file, unless it
does not come to it. -/
theorem exists_found_added {name : String} {octets : List UInt8} {way : List String}
    {tree tree' : Entry} (h : Entry.Added name octets way tree tree')
    (hname : Layout.isSourceName name) {directory : Path} (hdotless : directory.Dotless)
    {rules : IgnoreRules} {found : Layout.Found}
    (hfound : Layout.foundIn rules
      (Layout.visitsFrom rules directory (tree.follow? directory)) = .ok found) :
    ∃ found', Layout.foundIn rules
        (Layout.visitsFrom rules directory (tree'.follow? directory)) = .ok found' ∧
      found.Grown ⟨⟨directory.root, way ++ [name]⟩, octets⟩ found' ∧
      Layout.hasSources (tree'.follow? directory) = Layout.hasSources (tree.follow? directory) := by
  have hseen := h.seen_dotless hdotless
  generalize tree.follow? directory = e, tree'.follow? directory = e' at hseen hfound
  cases hseen with
  | same => exact ⟨found, hfound, .refl found, rfl⟩
  | @added rest e e' hway hadded =>
    obtain ⟨found', hfound', hgrown⟩ :=
      Layout.exists_foundIn_added hname hadded none directory hfound
    rw [Path.descend, ← List.append_assoc, ← hway] at hgrown
    exact ⟨found', hfound', hgrown, hasSources_added hadded hname⟩
  | fresh => exact ⟨found, hfound, .refl found, rfl⟩

/-- The projects of what is found from the directory of a workspace, with their modules. -/
def projectsOf (tree : Entry) (limits : LoadLimits) (directory : Path) (found : Layout.Found) :
    List ReadProject :=
  (Layout.assign directory (Layout.hasSources (tree.follow? directory)) found).map
    (readFiles limits)

/-- Where all metadata can be read, a load ends as the work on names does. -/
theorem loadGraph_ends_of_found {σ : Type} {tree : Entry} {limits : LoadLimits} {root : String}
    {directory : Path} (hroot : workspaceDirectory tree root = .ok directory)
    {found : Layout.Found}
    (hfound : Layout.foundIn (ignoreRules tree directory limits.ignorePatterns)
      (loadVisits tree limits directory) = .ok found) :
    (loadGraph tree limits root : Metered σ Graph).Ends
      (loadedGraph directory (projectsOf tree limits directory found) <$>
        referencesOf (projectsOf tree limits directory found)) := by
  have hends := loadGraph_ends_stages (σ := σ) limits hroot
  rw [hfound] at hends
  rw [map_eq_pure_bind]
  exact hends

/-- **Files that are skipped change nothing else.** A load that returns a graph also does so once
one more source is added anywhere in the file tree, if it is one that is skipped: too large, too
long or not following the grammar. Its path may be among those that are skipped, the projects of the
first graph are in the second one with the same names, directories, declarations and references, in
the same order, and if there is one more project, then it declares nothing and refers to nothing. -/
theorem loadGraph_added {σ : Type} [Nonempty σ] {tree tree' : Entry} {name : String}
    {octets : List UInt8} {way : List String} (h : Entry.Added name octets way tree tree')
    (hname : Layout.isSourceName name) (hdistinct : tree.isDistinct) {limits : LoadLimits}
    (hbad : SourceFile.IsBad limits ⟨⟨"/", way ++ [name]⟩, octets⟩) {root : String} {graph : Graph}
    (hload : (loadGraph tree limits root : Metered σ Graph).Ends (.ok graph)) :
    ∃ directory graph', workspaceDirectory tree root = .ok directory ∧
      (loadGraph tree' limits root : Metered σ Graph).Ends (.ok graph') ∧
      Graph.Skips (Path.text ⟨directory.root, way ++ [name]⟩) graph graph' := by
  cases hroot : workspaceDirectory tree root with
  | error e =>
    rw [loadGraph, hroot] at hload
    cases hload.unique (ends_throw e)
  | ok directory =>
    have hrules := ignoreRules_added h hname directory limits.ignorePatterns
    cases hfound : Layout.foundIn (ignoreRules tree directory limits.ignorePatterns)
        (loadVisits tree limits directory) with
    | error e =>
      have hends := loadGraph_ends_stages (σ := σ) limits hroot
      rw [hfound] at hends
      cases hload.unique hends
    | ok found =>
      obtain ⟨found', hfound', hgrown, hsources⟩ :=
        exists_found_added h hname (dotless_workspaceDirectory hroot) hfound
      have hnodup := Layout.nodup_foundIn
        (fun e he => Entry.isDistinct_follow? hdistinct he) hfound
      have hlayouts := Layout.grown_assign directory
        (Layout.hasSources (tree.follow? directory)) hnodup hgrown
      have hprojects' : projectsOf tree' limits directory found' =
          (Layout.assign directory (Layout.hasSources (tree.follow? directory)) found').map
            (readFiles limits) := by rw [projectsOf, hsources]
      have hends := loadGraph_ends_of_found (σ := σ) hroot hfound
      have hends' := loadGraph_ends_of_found (σ := σ) (workspaceDirectory_added h hname hroot)
        (show Layout.foundIn (ignoreRules tree' directory limits.ignorePatterns)
            (loadVisits tree' limits directory) = .ok found' by
          rw [loadVisits, hrules]
          exact hfound')
      have hgraph := hload.unique hends
      rw [hprojects'] at hends'
      cases hreferences : referencesOf (projectsOf tree limits directory found) with
      | error e =>
        rw [hreferences] at hgraph
        cases hgraph
      | ok references =>
        rw [hreferences] at hgraph
        cases hgraph
        obtain ⟨references', hreferences', hskips⟩ := skips_loadedGraph
          (f := ⟨⟨directory.root, way ++ [name]⟩, octets⟩) hbad hlayouts directory hreferences
        rw [hreferences'] at hends'
        exact ⟨directory, _, rfl, hends', hskips⟩

/-- A workspace with one project below its root. -/
def annex : Entry :=
  .directory [("ws", .directory [("p", .directory
    [("a.py", .file (asciiOctets "class A:\n    pass\n")), ("setup.py", .file [])])])]

theorem workspaceDirectory_annex : workspaceDirectory annex "/ws" = .ok ⟨"/", ["ws"]⟩ := by
  decide +kernel

theorem exists_loadGraph_annex :
    ∃ graph, (loadGraph annex {} "/ws" : Metered Unit Graph).Ends (.ok graph) := by
  have hlegible : ∀ v ∈ loadVisits annex {} ⟨"/", ["ws"]⟩, ¬ v.IsSpoilt := by decide +kernel
  have hreadable : ∀ p ∈ loadedProjects annex {} ⟨"/", ["ws"]⟩, ∀ d ∈ p.modules,
      Binding.ModuleReadable d := by decide +kernel
  have hload := loadGraph_ends_graph (σ := Unit) {} workspaceDirectory_annex hlegible
  obtain ⟨references, hreferences⟩ := exists_referencesOf hreadable
  rw [hreferences] at hload
  exact ⟨_, hload⟩

/-- The workspace with a source beside the project that does not follow the grammar. -/
def annexWithRubble : Entry :=
  .directory [("ws", .directory
    [("b.py", .file (asciiOctets "def (\n")), ("p", .directory
      [("a.py", .file (asciiOctets "class A:\n    pass\n")), ("setup.py", .file [])])])]

/-- The root becomes a project in which there is nothing. -/
theorem loadGraph_added_annex :
    ∃ graph graph', (loadGraph annex {} "/ws" : Metered Unit Graph).Ends (.ok graph) ∧
      (loadGraph annexWithRubble {} "/ws" : Metered Unit Graph).Ends (.ok graph') ∧
      graph.Skips "/ws/b.py" graph' := by
  obtain ⟨graph, hload⟩ := exists_loadGraph_annex
  have hadded : Entry.Added "b.py" (asciiOctets "def (\n") ["ws"] annex annexWithRubble :=
    .within [] [] (.here [] _ (by simp))
  have hbad : SourceFile.IsBad {} ⟨⟨"/", ["ws", "b.py"]⟩, asciiOctets "def (\n"⟩ := by
    refine .inr (.inr ?_)
    have hnone : (Syntax.parseModule (textOfOctets (asciiOctets "def (\n"))).toOption.isNone := by
      decide +kernel
    cases hparse : Syntax.parseModule (textOfOctets (asciiOctets "def (\n")) with
    | error fault => exact ⟨fault, rfl⟩
    | ok body => rw [hparse] at hnone; cases hnone
  obtain ⟨directory, graph', hroot', hload', hskips⟩ :=
    loadGraph_added hadded (by decide +kernel) (by decide +kernel) hbad hload
  obtain rfl := Except.ok.inj (workspaceDirectory_annex.symm.trans hroot')
  exact ⟨_, graph', hload, hload', hskips⟩

end Concordance
