import Concordance.Proofs.Metered
import Concordance.Proofs.Workspace.Metadata
import Concordance.Workspace.Discovery

/-!
# What a walk finds

Which directories a walk comes to, and which project the sources of each belong to, depends on names
alone: on those of the entries and on what is left out. So what a walk finds can be said for each of
these directories by itself. The only thing that a walk can fail for is the metadata of one of them.

## Main definitions

* `Layout.Visit`, `Layout.visits`: the directories that a walk comes to
* `Layout.Visit.layout`: the project that a directory is, in which metadata that cannot be read say
  nothing

## Main results

* `Layout.walk_ends`: what a walk finds, put together from the directories
* `Layout.exists_layout_of_mem_visits`: no source file is lost on the way
* `Layout.foundIn_eq`, `Layout.foundIn_error`: where metadata can be read everywhere, and where not
-/

namespace Concordance.Layout

open Metered

/-- A directory that a walk comes to, with the project that its sources belong to. -/
structure Visit where
  owner : Option Path
  directory : Path
  entries : List (String × Entry)

mutual

/-- The directories that a walk through a directory comes to. -/
def visits (rules : IgnoreRules) (owner : Option Path) (directory : Path) : Entry → List Visit
  | .file _ => []
  | .directory entries =>
    let owner := if isProject entries then some directory else owner
    ⟨owner, directory, entries⟩ :: visitsAll rules owner directory entries

/-- The directories that a walk through those in a directory comes to. -/
def visitsAll (rules : IgnoreRules) (owner : Option Path) (directory : Path) :
    List (String × Entry) → List Visit
  | [] => []
  | (name, e) :: rest =>
    let path := directory.child name
    (if e.isDirectory && !rules.ignores path then visits rules owner path e else []) ++
      visitsAll rules owner directory rest

end

namespace Visit

variable (rules : IgnoreRules) (v : Visit)

/-- The source files that are found in a directory. -/
def files : List (Option Path × SourceFile) :=
  (sourcesIn rules v.directory v.entries).map fun f => (v.owner, f)

/-- The project that a directory is, if it is one. -/
def project : Except Failure (List Layout) :=
  if isProject v.entries then (ofDirectory v.directory v.entries).map fun l => [l] else .ok []

/-- A directory is a project with metadata that cannot be read. -/
def IsSpoilt : Prop := isProject v.entries ∧ ¬ Metadata.Legible (.directory v.entries)

instance : DecidablePred IsSpoilt := fun v =>
  inferInstanceAs (Decidable (isProject v.entries ∧ ¬ Metadata.Legible (.directory v.entries)))

/-- What is known about a project if metadata that cannot be read say nothing. -/
def known : Metadata := (Metadata.ofDirectory (.directory v.entries)).toOption.getD {}

/-- The project that a directory is if metadata that cannot be read say nothing. -/
def layout : Layout :=
  { name := v.known.name.getD (.string v.directory.name), directory := v.directory
    hasScripts := v.known.hasScripts
    hasSourceDirectory :=
      ((Entry.directory v.entries).child? sourceDirectoryName).any Entry.isDirectory }

end Visit

mutual

/-- A directory lies in the project that the walk started in, or in one that the walk comes to. -/
theorem owner_of_mem_visits (rules : IgnoreRules) (owner : Option Path) (directory : Path) :
    ∀ (e : Entry), ∀ v ∈ visits rules owner directory e, v.owner = owner ∨
      ∃ w ∈ visits rules owner directory e, isProject w.entries ∧ v.owner = some w.directory
  | .file _, v, hv => by
    rw [visits] at hv
    cases hv
  | .directory entries, v, hv => by
    rw [visits] at hv ⊢
    by_cases hproject : isProject entries
    · simp only [hproject, if_true] at hv ⊢
      have hhere : ∃ w ∈ _ :: visitsAll rules (some directory) directory entries,
          isProject w.entries ∧ some directory = some w.directory :=
        ⟨⟨some directory, directory, entries⟩, List.mem_cons_self, hproject, rfl⟩
      rcases List.mem_cons.mp hv with rfl | hv
      · exact .inr hhere
      · rcases owner_of_mem_visitsAll rules (some directory) directory entries v hv with
          h | ⟨w, hw, h⟩
        · exact .inr (h ▸ hhere)
        · exact .inr ⟨w, List.mem_cons_of_mem _ hw, h⟩
    · simp only [hproject] at hv ⊢
      rcases List.mem_cons.mp hv with rfl | hv
      · exact .inl rfl
      · rcases owner_of_mem_visitsAll rules owner directory entries v hv with h | ⟨w, hw, h⟩
        · exact .inl h
        · exact .inr ⟨w, List.mem_cons_of_mem _ hw, h⟩

theorem owner_of_mem_visitsAll (rules : IgnoreRules) (owner : Option Path) (directory : Path) :
    ∀ (entries : List (String × Entry)), ∀ v ∈ visitsAll rules owner directory entries,
      v.owner = owner ∨ ∃ w ∈ visitsAll rules owner directory entries,
        isProject w.entries ∧ v.owner = some w.directory
  | [], v, hv => by
    rw [visitsAll] at hv
    cases hv
  | (name, e) :: rest, v, hv => by
    rw [visitsAll] at hv ⊢
    rcases List.mem_append.mp hv with hv | hv
    · by_cases hentered : e.isDirectory && !rules.ignores (directory.child name)
      · rw [if_pos hentered] at hv ⊢
        rcases owner_of_mem_visits rules owner (directory.child name) e v hv with h | ⟨w, hw, h⟩
        · exact .inl h
        · exact .inr ⟨w, List.mem_append_left _ hw, h⟩
      · rw [if_neg hentered] at hv
        cases hv
    · rcases owner_of_mem_visitsAll rules owner directory rest v hv with h | ⟨w, hw, h⟩
      · exact .inl h
      · exact .inr ⟨w, List.mem_append_right _ hw, h⟩

end

/-- What is found in some directories. -/
def foundIn (rules : IgnoreRules) : List Visit → Except Failure Found
  | [] => .ok {}
  | v :: rest => do
    let projects ← v.project
    let found ← foundIn rules rest
    pure (Found.append ⟨projects, v.files rules⟩ found)

theorem Found.append_assoc (a b c : Found) : (a.append b).append c = a.append (b.append c) := by
  simp [Found.append]

theorem Found.nil_append (a : Found) : Found.append {} a = a := rfl

theorem foundIn_append (rules : IgnoreRules) (vs ws : List Visit) :
    foundIn rules (vs ++ ws) = (do
      let found ← foundIn rules vs
      let more ← foundIn rules ws
      pure (found.append more)) := by
  induction vs with
  | nil => exact (bind_pure (foundIn rules ws)).symm
  | cons v vs ih =>
    rw [List.cons_append, foundIn, foundIn, ih]
    simp only [bind_assoc, pure_bind, Found.append_assoc]

section

variable {σ : Type} (rules : IgnoreRules)

mutual

/-- What a walk finds is what the directories it comes to hold. -/
theorem walk_ends (owner : Option Path) (directory : Path) :
    ∀ e : Entry, (walk rules owner directory e : Metered σ Found).Ends
      (foundIn rules (visits rules owner directory e))
  | .file _ => by
    rw [walk, visits, foundIn]
    exact ends_pure _
  | .directory entries => by
    have hall := fun owner => walkAll_ends owner directory entries
    rw [walk, visits, foundIn, Visit.project]
    refine ends_checkpoint.bind ?_
    by_cases hproject : isProject entries
    · simp only [hproject, if_true]
      cases ofDirectory directory entries with
      | error e => exact (ends_throw e).bind_error
      | ok l => exact (hall (some directory)).andThen fun found _ => ends_pure _
    · simp only [hproject]
      exact (hall owner).andThen fun found _ => ends_pure _

theorem walkAll_ends (owner : Option Path) (directory : Path) :
    ∀ entries : List (String × Entry),
      (walkAll rules owner directory entries : Metered σ Found).Ends
        (foundIn rules (visitsAll rules owner directory entries))
  | [] => by
    rw [walkAll, visitsAll, foundIn]
    exact ends_pure _
  | (name, e) :: rest => by
    have hrest := walkAll_ends owner directory rest
    rw [walkAll, visitsAll, foundIn_append]
    by_cases hentered : e.isDirectory && !rules.ignores (directory.child name)
    · rw [if_pos hentered, if_pos hentered]
      exact (walk_ends owner _ e).andThen fun found _ => hrest.andThen fun more _ => ends_pure _
    · rw [if_neg hentered, if_neg hentered]
      exact hrest.andThen fun more _ => ends_pure _

end

end

/-! ### Metadata along the way -/

theorem Visit.project_eq {v : Visit} (h : ¬ v.IsSpoilt) :
    v.project = .ok (if isProject v.entries then [v.layout] else []) := by
  unfold Visit.project
  by_cases hproject : isProject v.entries
  · obtain ⟨m, hm⟩ := Metadata.exists_ofDirectory_iff.mpr
      (Classical.byContradiction fun hl => h ⟨hproject, hl⟩)
    have hknown : v.known = m := by rw [Visit.known, hm]; rfl
    rw [if_pos hproject, if_pos hproject, ofDirectory, hm, Visit.layout, hknown]
    rfl
  · rw [if_neg hproject, if_neg hproject]

theorem Visit.project_error {v : Visit} (h : v.IsSpoilt) :
    ∃ e, Metadata.ofDirectory (.directory v.entries) = .error e ∧ v.project = .error e := by
  cases hm : Metadata.ofDirectory (.directory v.entries) with
  | ok m => exact absurd (Metadata.exists_ofDirectory_iff.mp ⟨m, hm⟩) h.2
  | error e => exact ⟨e, rfl, by rw [Visit.project, if_pos h.1, ofDirectory, hm]; rfl⟩

/-- What is found if metadata that cannot be read say nothing. -/
def found (rules : IgnoreRules) (vs : List Visit) : Found where
  projects := (vs.filter fun v => isProject v.entries).map Visit.layout
  files := vs.flatMap (Visit.files rules)

/-- Where metadata can be read everywhere, nothing is lost. -/
theorem foundIn_eq (rules : IgnoreRules) {vs : List Visit} (h : ∀ v ∈ vs, ¬ v.IsSpoilt) :
    foundIn rules vs = .ok (found rules vs) := by
  induction vs with
  | nil => rfl
  | cons v vs ih =>
    rw [foundIn, Visit.project_eq (h v List.mem_cons_self),
      ih fun w hw => h w (List.mem_cons_of_mem _ hw)]
    by_cases hproject : isProject v.entries <;>
      simp [found, Found.append, hproject] <;> rfl

/-- Otherwise the first directory with metadata that cannot be read decides. -/
theorem foundIn_error (rules : IgnoreRules) {vs : List Visit} (h : ∃ v ∈ vs, v.IsSpoilt) :
    ∃ v ∈ vs, ∃ e, Metadata.ofDirectory (.directory v.entries) = .error e ∧ v.IsSpoilt ∧
      foundIn rules vs = .error e := by
  induction vs with
  | nil => simp at h
  | cons v vs ih =>
    rw [foundIn]
    by_cases hv : v.IsSpoilt
    · obtain ⟨e, he, hproject⟩ := Visit.project_error hv
      exact ⟨v, List.mem_cons_self, e, he, hv, by rw [hproject]; rfl⟩
    · have hrest : ∃ w ∈ vs, w.IsSpoilt := by
        obtain ⟨w, hw, hspoilt⟩ := h
        rcases List.mem_cons.mp hw with rfl | hw
        · exact absurd hspoilt hv
        · exact ⟨w, hw, hspoilt⟩
      obtain ⟨w, hw, e, he, hspoilt, hfound⟩ := ih hrest
      refine ⟨w, List.mem_cons_of_mem _ hw, e, he, hspoilt, ?_⟩
      rw [Visit.project_eq hv, hfound]
      rfl

/-! ### Projects -/

/-- The directories that a walk from a root comes to. -/
def visitsFrom (rules : IgnoreRules) (root : Path) (tree : Option Entry) : List Visit :=
  (tree.map (visits rules none root)).getD []

/-- Whether a tree has a directory for sources. -/
def hasSources (tree : Option Entry) : Bool :=
  (tree.bind (·.child? sourceDirectoryName)).any Entry.isDirectory

/-- The projects below a root if metadata that cannot be read say nothing. -/
def layouts (rules : IgnoreRules) (root : Path) (tree : Option Entry) : List Layout :=
  assign root (hasSources tree) (found rules (visitsFrom rules root tree))

/-- The projects below a root as a walk comes to them, with the root last. -/
def assigned (root : Path) (hasSourceDirectory : Bool) (found : Found) : List Layout :=
  let owned := found.projects.map fun l => { l with files := filesOf (some l.directory) found }
  let loose := filesOf none found
  if loose.isEmpty then owned
  else owned ++
    [{ name := .string root.name, directory := root, hasSourceDirectory, files := loose }]

theorem assign_eq (root : Path) (hasSourceDirectory : Bool) (found : Found) :
    assign root hasSourceDirectory found = (assigned root hasSourceDirectory found).mergeSort le :=
  rfl

/-- Projects that a walk comes to in order stay as they are. -/
theorem layouts_eq_of_pairwise {rules : IgnoreRules} {root : Path} {tree : Option Entry}
    (h : (assigned root (hasSources tree) (found rules (visitsFrom rules root tree))).Pairwise
      fun a b => le a b) :
    layouts rules root tree =
      assigned root (hasSources tree) (found rules (visitsFrom rules root tree)) :=
  List.mergeSort_of_pairwise h

theorem mem_filesOf {owner : Option Path} {found : Found} {f : SourceFile} :
    f ∈ filesOf owner found ↔ (owner, f) ∈ found.files := by
  simp [filesOf]

/-- A file without a project is given to the root, and any other one to its project. -/
theorem exists_of_mem_files {root : Path} {hasSourceDirectory : Bool} {found : Found}
    {owner : Option Path} {f : SourceFile} (hf : (owner, f) ∈ found.files)
    (howner : owner = none ∨ ∃ l ∈ found.projects, owner = some l.directory) :
    ∃ l ∈ assign root hasSourceDirectory found, f ∈ l.files := by
  rw [← mem_filesOf] at hf
  unfold assign
  simp only [List.mem_mergeSort]
  rcases howner with rfl | ⟨l, hl, rfl⟩
  · have hloose : (filesOf none found).isEmpty = false :=
      List.isEmpty_eq_false_iff.mpr (List.ne_nil_of_mem hf)
    rw [hloose]
    exact ⟨_, List.mem_append_right _ List.mem_cons_self, hf⟩
  · have howned := List.mem_map_of_mem (f := fun l : Layout =>
      { l with files := filesOf (some l.directory) found }) hl
    refine ⟨{ l with files := filesOf (some l.directory) found }, ?_, hf⟩
    split
    · exact howned
    · exact List.mem_append_left _ howned

/-- Every source file that a walk comes by is in one of the projects. -/
theorem exists_layout_of_mem_visits {rules : IgnoreRules} {root : Path} {tree : Option Entry}
    {v : Visit} (hv : v ∈ visitsFrom rules root tree) {f : SourceFile}
    (hf : f ∈ sourcesIn rules v.directory v.entries) :
    ∃ l ∈ layouts rules root tree, f ∈ l.files := by
  cases tree with
  | none => cases hv
  | some e =>
    have hfound : (v.owner, f) ∈ (found rules (visitsFrom rules root (some e))).files :=
      List.mem_flatMap.mpr ⟨v, hv, List.mem_map_of_mem hf⟩
    refine exists_of_mem_files hfound ((owner_of_mem_visits rules none root e v hv).imp_right ?_)
    rintro ⟨w, hw, hproject, howner⟩
    exact ⟨w.layout, List.mem_map_of_mem (List.mem_filter.mpr ⟨hw, hproject⟩), howner⟩

theorem ofTree_ends {σ : Type} (rules : IgnoreRules) (root : Path) (tree : Option Entry) :
    (ofTree rules root tree : Metered σ (List Layout)).Ends
      (assign root (hasSources tree) <$> foundIn rules (visitsFrom rules root tree)) := by
  cases tree with
  | none =>
    have hnone : assign root false {} = [] := by simp [assign, filesOf]
    show (pure [] : Metered σ _).Ends (.ok (assign root false {}))
    rw [hnone]
    exact ends_pure []
  | some e =>
    rw [map_eq_pure_bind]
    exact (walk_ends rules none root e).andThen fun found _ => ends_pure _

end Concordance.Layout
