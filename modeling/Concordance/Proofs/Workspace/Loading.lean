import Concordance.Proofs.Binding.Hints
import Concordance.Proofs.Workspace.Walking
import Concordance.Workspace.Load

/-!
# Loads of workspaces with bad files

What a load that nothing calls off ends with, for all contents of the files. Sources never fail it:
one that is too large, too long or does not follow the grammar is skipped, whatever its octets are,
and so are metadata that do not follow their grammar. What does fail a load is metadata that cannot
be read in the sense of `Metadata.Legible`, and a hint with a text that cannot be read at all.

## Main definitions

* `readFiles`: a project with its modules and the files that are skipped
* `loadVisits`, `loadedProjects`: the directories a load looks at, and its projects
* `referencesOf`: the references in projects, where all names can be worked out
* `SourceFile.IsBad`, `KeepsSources`: source files that cannot be read, and nothing else skipped
* `loadedGraph`: the graph of projects

## Main results

* `keepsSources_loadedProjects`: every good source file is read
* `referencesOf_cases`: what looking for references ends with
* `loadGraph_ends`: what a load ends with
* `loadGraph_ends_messy`: a workspace with files of all kinds
* `not_always_loads`: metadata that are no text fail a load
-/

namespace Concordance

open Metered

/-! ### Sources -/

/-- A project with the modules that its files are, and the files that are skipped. -/
def readFiles (limits : LoadLimits) (layout : Layout) : ReadProject where
  layout
  modules := layout.files.filterMap (readModule? limits layout)
  skipped :=
    (layout.files.filter fun f => (readModule? limits layout f).isNone).map fun f => f.path.text

/-- A project with one more file, which is a module or skipped. -/
def readFile (limits : LoadLimits) (layout : Layout) (p : ReadProject) (file : SourceFile) :
    ReadProject :=
  match readModule? limits layout file with
  | some m => { p with modules := p.modules ++ [m] }
  | none => { p with skipped := p.skipped ++ [file.path.text] }

theorem foldl_readFile (limits : LoadLimits) (layout : Layout) (files : List SourceFile)
    (p : ReadProject) :
    files.foldl (readFile limits layout) p =
      { p with
        modules := p.modules ++ files.filterMap (readModule? limits layout)
        skipped := p.skipped ++
          (files.filter fun f => (readModule? limits layout f).isNone).map fun f =>
            f.path.text } := by
  induction files generalizing p with
  | nil => simp
  | cons f files ih =>
    rw [List.foldl_cons, ih, readFile]
    cases hf : readModule? limits layout f <;> simp [hf]

/-- A source file cannot be read: it is too large, too long or does not follow the grammar. One that
is no text in UTF-8 is taken octet by octet. -/
def SourceFile.IsBad (limits : LoadLimits) (f : SourceFile) : Prop :=
  limits.mostBytes < f.octets.length ∨ limits.mostLines < lineCount f.octets ∨
    ∃ fault, Syntax.parseModule (textOfOctets f.octets) = .error fault

theorem readModule?_eq_none_iff {limits : LoadLimits} {layout : Layout} {f : SourceFile} :
    readModule? limits layout f = none ↔ f.IsBad limits := by
  simp only [readModule?, readSourceText?, SourceFile.IsBad, Bool.or_eq_true, decide_eq_true_eq,
    ← or_assoc]
  by_cases hsize : limits.mostBytes < f.octets.length ∨ limits.mostLines < lineCount f.octets
  · simp [hsize]
  · rw [if_neg hsize]
    cases hparse : Syntax.parseModule (textOfOctets f.octets) <;> simp [hsize, hparse]

theorem source_of_readModule? {limits : LoadLimits} {layout : Layout} {f : SourceFile}
    {m : ModuleDecls} (h : readModule? limits layout f = some m) :
    m.source.file = f.path.text ∧
      Syntax.parseModule (textOfOctets f.octets) = .ok m.source.body := by
  simp only [readModule?, readSourceText?] at h
  split at h
  · cases h
  · rename_i source hsource
    split at hsource
    · cases hsource
    · cases hsource
      split at h
      · rename_i body hparse
        cases h
        exact ⟨rfl, hparse⟩
      · cases h

/-- Reading the sources of a project does not fail. -/
theorem readProject_ends {σ : Type} (limits : LoadLimits) (layout : Layout) :
    (readProject limits layout : Metered σ ReadProject).Ends (.ok (readFiles limits layout)) := by
  have hstep : ∀ (p : ReadProject) (file : SourceFile),
      (do checkpoint; pure (readFile limits layout p file) : Metered σ ReadProject).Ends
        (.ok (readFile limits layout p file)) := fun p file => ends_checkpoint.bind (ends_pure _)
  have hfold := Ends.foldlM hstep layout.files { layout }
  rw [foldl_readFile] at hfold
  exact hfold

/-! ### References -/

/-- What work on names comes to. -/
def nameOutcome {α : Type} :
    Except Binding.Fault α × Binding.Cache → Except Failure (α × Binding.Cache)
  | (.ok a, cache) => .ok (a, cache)
  | (.error f, _) => .error f.failure

theorem nameOutcome_bind {α β : Type} (x : Binding.Resolve α) (f : α → Binding.Resolve β)
    (cache : Binding.Cache) :
    nameOutcome ((x >>= f).run cache) =
      nameOutcome (x.run cache) >>= fun r => nameOutcome ((f r.1).run r.2) := by
  rw [Binding.run_bind]
  rcases x.run cache with ⟨_ | _, _⟩ <;> rfl

theorem resolveWith_ends {σ α : Type} (work : Binding.Resolve α) (cache : Binding.Cache) :
    (resolveWith work cache : Metered σ _).Ends (nameOutcome (work.run cache)) := by
  unfold resolveWith
  rcases work.run cache with ⟨_ | _, _⟩
  · exact ends_throw _
  · exact ends_pure _

/-- The references in modules with the indices from `first` on. -/
def referencesOfModules (c : Binding.Codebase) :
    (first : Nat) → ReferenceIndex → List ModuleDecls → Binding.Resolve ReferenceIndex
  | _, ix, [] => pure ix
  | first, ix, m :: rest =>
    if mostNested < Syntax.Node.heightAll m.source.body then
      referencesOfModules c (first + 1) ix rest
    else do
      let found ← Binding.references c first
      referencesOfModules c (first + 1) (addReferences m.source.file ix found) rest

/-- The references in projects whose modules have the indices from `first` on. -/
def referencesOfProjects (c : Binding.Codebase) :
    (first : Nat) → List ReadProject → Binding.Resolve (List ReferenceIndex)
  | _, [] => pure []
  | first, p :: rest => do
    let ix ← referencesOfModules c first [] p.modules
    return ix :: (← referencesOfProjects c (first + p.modules.length) rest)

theorem collectModules_ends {σ : Type} (c : Binding.Codebase) (first : Nat) (ix : ReferenceIndex)
    (cache : Binding.Cache) (modules : List ModuleDecls) :
    (collectModules c first ix cache modules : Metered σ _).Ends
      (nameOutcome ((referencesOfModules c first ix modules).run cache)) := by
  induction modules generalizing first ix cache with
  | nil => exact ends_pure (ix, cache)
  | cons m rest ih =>
    rw [collectModules, referencesOfModules]
    refine ends_checkpoint.bind ?_
    by_cases hnested : mostNested < Syntax.Node.heightAll m.source.body
    · rw [if_pos hnested, if_pos hnested]
      exact ih _ _ _
    · rw [if_neg hnested, if_neg hnested, nameOutcome_bind]
      exact (resolveWith_ends _ cache).andThen fun _ _ => ih _ _ _

theorem collectProjects_ends {σ : Type} (c : Binding.Codebase) (first : Nat)
    (cache : Binding.Cache) (projects : List ReadProject) :
    (collectProjects c first cache projects : Metered σ _).Ends
      (Prod.fst <$> nameOutcome ((referencesOfProjects c first projects).run cache)) := by
  induction projects generalizing first cache with
  | nil => exact ends_pure []
  | cons p rest ih =>
    rw [collectProjects, referencesOfProjects, nameOutcome_bind, map_bind]
    refine (collectModules_ends c first [] cache p.modules).andThen fun r _ => ?_
    obtain ⟨ix, cache⟩ := r
    rw [nameOutcome_bind, map_bind]
    have hrest := (ih (first + p.modules.length) cache).andThen
      (g := fun rest => .ok (ix :: rest)) fun rest _ => ends_pure (ix :: rest)
    rw [bind_map_left] at hrest
    exact hrest

/-- Find the base classes in projects, then the references. -/
def referencesIn (projects : List ReadProject) : Binding.Resolve (List ReferenceIndex) := do
  let c ← (Binding.Codebase.ofModules (projects.flatMap ReadProject.modules)).resolveBases
  referencesOfProjects c 0 projects

/-- The references in projects. -/
def referencesOf (projects : List ReadProject) : Except Failure (List ReferenceIndex) :=
  Prod.fst <$> nameOutcome ((referencesIn projects).run [])

section

variable {modules : List ModuleDecls} {mayFail : Binding.Illegible → Prop}
  (h : ∀ d ∈ modules, ∀ hint ∈ Binding.hintsOf d, ∀ why ∈ hint.faults, mayFail why)
  {c : Binding.Codebase} (hc : ∃ bases, c = { Binding.Codebase.ofModules modules with bases })

include h hc

theorem givesUnless_referencesOfModules (first : Nat) (ix : ReferenceIndex)
    (ms : List ModuleDecls) :
    Binding.GivesUnless mayFail (fun _ => True) (referencesOfModules c first ix ms) := by
  induction ms generalizing first ix with
  | nil => exact .pure trivial
  | cons m ms ih =>
    rw [referencesOfModules]
    split
    · exact ih _ _
    · exact (Binding.givesUnless_references h hc first).bind fun _ _ => ih _ _

theorem givesUnless_referencesOfProjects (first : Nat) (projects : List ReadProject) :
    Binding.GivesUnless mayFail (fun _ => True) (referencesOfProjects c first projects) := by
  induction projects generalizing first with
  | nil => exact .pure trivial
  | cons p projects ih =>
    exact (givesUnless_referencesOfModules h hc first [] p.modules).bind fun _ _ =>
      (ih _).bind fun _ _ => .pure trivial

end

/-- References in projects are found, unless a hint cannot be read. -/
theorem givesUnless_referencesIn (projects : List ReadProject) :
    Binding.GivesUnless (fun why => ∃ p ∈ projects, ∃ d ∈ p.modules, ∃ hint ∈ Binding.hintsOf d,
      why ∈ hint.faults) (fun _ => True) (referencesIn projects) := by
  have hmodules : ∀ d ∈ projects.flatMap ReadProject.modules, ∀ hint ∈ Binding.hintsOf d,
      ∀ why ∈ hint.faults, ∃ p ∈ projects, ∃ d ∈ p.modules, ∃ hint ∈ Binding.hintsOf d,
        why ∈ hint.faults := by
    intro d hd hint hhint why hwhy
    obtain ⟨p, hp, hd⟩ := List.mem_flatMap.mp hd
    exact ⟨p, hp, d, hd, hint, hhint, hwhy⟩
  exact (Binding.givesUnless_resolveBases hmodules ⟨[], rfl⟩).bind fun c hc =>
    givesUnless_referencesOfProjects hmodules hc 0 projects

/-- All references are found, or a failure says why a hint cannot be read. -/
theorem referencesOf_cases (projects : List ReadProject) :
    (∃ references, referencesOf projects = .ok references) ∨
      ∃ p ∈ projects, ∃ d ∈ p.modules, ∃ hint ∈ Binding.hintsOf d, ∃ why ∈ hint.faults,
        referencesOf projects = .error why.failure := by
  have hends := givesUnless_referencesIn projects []
  rw [referencesOf]
  generalize (referencesIn projects).run [] = ran at hends ⊢
  obtain ⟨f | references, cache⟩ := ran
  · obtain ⟨why, rfl, p, hp, d, hd, hint, hhint, hwhy⟩ := hends
    exact .inr ⟨p, hp, d, hd, hint, hhint, why, hwhy, rfl⟩
  · exact .inl ⟨references, rfl⟩

/-- Where all hints can be read, all references are found. -/
theorem exists_referencesOf {projects : List ReadProject}
    (h : ∀ p ∈ projects, ∀ d ∈ p.modules, Binding.ModuleReadable d) :
    ∃ references, referencesOf projects = .ok references := by
  refine (referencesOf_cases projects).resolve_right ?_
  rintro ⟨p, hp, d, hd, hint, hhint, why, hwhy, -⟩
  rw [h p hp d hd hint hhint] at hwhy
  cases hwhy

/-! ### Loads -/

/-- The directories that a load looks at. -/
def loadVisits (tree : Entry) (limits : LoadLimits) (directory : Path) : List Layout.Visit :=
  Layout.visitsFrom (ignoreRules tree directory limits.ignorePatterns) directory
    (tree.follow? directory)

/-- The projects of a workspace, in which every bad file is skipped and metadata that cannot be read
say nothing. -/
def loadedProjects (tree : Entry) (limits : LoadLimits) (directory : Path) : List ReadProject :=
  (Layout.layouts (ignoreRules tree directory limits.ignorePatterns) directory
    (tree.follow? directory)).map (readFiles limits)

/-- A project has a source file: a bad one among those that are skipped, any other one as a module
with the statements that are written in it. -/
def ReadProject.Has (limits : LoadLimits) (p : ReadProject) (f : SourceFile) : Prop :=
  f.IsBad limits ∧ f.path.text ∈ p.skipped ∨
    ¬ f.IsBad limits ∧ ∃ m ∈ p.modules, m.source.file = f.path.text ∧
      Syntax.parseModule (textOfOctets f.octets) = .ok m.source.body

/-- The graph of projects with references in them. -/
def loadedGraph (directory : Path) (projects : List ReadProject)
    (references : List ReferenceIndex) : Graph where
  rootPath := directory.text
  projects := projects.map ReadProject.project
  moduleCount := (projects.flatMap ReadProject.modules).length
  skipped := projects.flatMap ReadProject.skipped
  references

section

variable {σ : Type} {tree : Entry} {root : String} {directory : Path} (limits : LoadLimits)
  (hroot : workspaceDirectory tree root = .ok directory)

include hroot

/-- A load ends as the walk, the reading of sources and the work on names do after each other. -/
theorem loadGraph_ends_stages :
    (loadGraph tree limits root : Metered σ Graph).Ends (do
      let layouts ← Layout.assign directory (Layout.hasSources (tree.follow? directory)) <$>
        Layout.foundIn (ignoreRules tree directory limits.ignorePatterns)
          (loadVisits tree limits directory)
      let projects := layouts.map (readFiles limits)
      return loadedGraph directory projects (← referencesOf projects)) := by
  rw [loadGraph, hroot]
  refine (Layout.ofTree_ends _ directory (tree.follow? directory)).andThen fun layouts _ => ?_
  refine (Ends.mapM fun layout _ => readProject_ends limits layout).bind ?_
  show Ends _ (referencesOf (layouts.map (readFiles limits)) >>= fun references =>
    .ok (loadedGraph directory (layouts.map (readFiles limits)) references))
  rw [referencesOf, referencesIn, nameOutcome_bind, map_bind, bind_assoc]
  refine (resolveWith_ends _ []).andThen fun r _ => ?_
  exact (collectProjects_ends r.1 0 r.2 _).andThen fun references _ => ends_pure _

/-- A directory with metadata that cannot be read fails a load. -/
theorem loadGraph_ends_error (h : ∃ v ∈ loadVisits tree limits directory, v.IsSpoilt) :
    ∃ v ∈ loadVisits tree limits directory, v.IsSpoilt ∧
      ∃ e, Metadata.ofDirectory (.directory v.entries) = .error e ∧
        (loadGraph tree limits root : Metered σ Graph).Ends (.error e) := by
  obtain ⟨v, hv, e, he, hspoilt, hfound⟩ := Layout.foundIn_error
    (ignoreRules tree directory limits.ignorePatterns) h
  have hload := loadGraph_ends_stages (σ := σ) limits hroot
  rw [hfound] at hload
  exact ⟨v, hv, hspoilt, e, he, hload⟩

/-- Otherwise a load ends as the work on names does. -/
theorem loadGraph_ends_graph (h : ∀ v ∈ loadVisits tree limits directory, ¬ v.IsSpoilt) :
    (loadGraph tree limits root : Metered σ Graph).Ends
      (loadedGraph directory (loadedProjects tree limits directory) <$>
        referencesOf (loadedProjects tree limits directory)) := by
  have hload := loadGraph_ends_stages (σ := σ) limits hroot
  rw [Layout.foundIn_eq _ h] at hload
  rw [map_eq_pure_bind]
  exact hload

end

/-- The octets of a text without other characters than those of ASCII. -/
def asciiOctets (s : String) : List UInt8 := s.toList.map fun c => UInt8.ofNat c.toNat

end Concordance
