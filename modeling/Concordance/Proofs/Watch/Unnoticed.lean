import Concordance.Proofs.Watch.Relevance
import Mathlib.Data.List.Forall2

/-!
# Changes that do not count

A watcher asks for a load when a change counts, so a change that does not count must not change
what is found. What a search for projects reads is the content of metadata files alone, and it
reads those of every directory that it enters. It does not ask the rules of them, and a watcher
does: a metadata file that is left out itself, in a directory that is entered, is read, but a
change of it does not count. Nothing else that is found depends on what a watcher overlooks.

## Main definitions

* `Entry.Rewritten`: file trees that differ in the content of one file
* `Layout.Summary`: what is found about a project
* `FindsSame`: what is found is the same, or the search fails for the same reason

## Main results

* `findsSame_of_not_isRelevant`: changes that do not count
* `not_always_findsSame`: a metadata file that is left out
-/

namespace Concordance

open Metered

/-- Two file trees are the same but for the content of a file at the end of a way. -/
inductive Entry.Rewritten : List String → Entry → Entry → Prop
  | file (old new : List UInt8) : Rewritten [] (.file old) (.file new)
  | directory {name : String} {rest : List String} {e e' : Entry}
      (before after : List (String × Entry)) (inner : Rewritten rest e e') :
      Rewritten (name :: rest) (.directory (before ++ (name, e) :: after))
        (.directory (before ++ (name, e') :: after))

theorem Entry.Rewritten.isDirectory_eq {way : List String} {e e' : Entry}
    (h : Entry.Rewritten way e e') : e.isDirectory = e'.isDirectory := by
  cases h <;> rfl

theorem Entry.Rewritten.octets?_eq {way : List String} {e e' : Entry}
    (h : Entry.Rewritten way e e') (hway : way ≠ []) : e.octets? = e'.octets? := by
  cases h with
  | file => exact absurd rfl hway
  | directory => rfl

namespace Layout

/-! ### What is found -/

/-- What is found about a project: its name, its directory, whether it has scripts, where its
modules are named from, what it builds, and its files with the names of their modules. -/
structure Summary where
  name : Toml.Value
  directory : Path
  hasScripts : Bool
  sourceRoot : Path
  outputKind : Option OutputKind
  files : List (Path × String)

/-- What is found about a project. -/
def summary (l : Layout) : Summary where
  name := l.name
  directory := l.directory
  hasScripts := l.hasScripts
  sourceRoot := l.sourceRoot
  outputKind := l.outputKind
  files := l.files.map fun f => (f.path, l.moduleName f.path)

/-- A source file without its content. -/
def emptied (f : SourceFile) : SourceFile := { f with octets := [] }

/-- A project with source files without their content. -/
def withEmptied (l : Layout) : Layout := { l with files := l.files.map emptied }

/-- What is found about a project does not depend on the content of its sources. -/
theorem summary_withEmptied (l : Layout) : l.withEmptied.summary = l.summary := by
  have hkind : l.withEmptied.outputKind = l.outputKind := by
    simp only [outputKind, withEmptied, List.isEmpty_map, List.any_map]
    rfl
  rw [summary, summary, hkind]
  simp only [withEmptied, List.map_map]
  rfl

/-- What is found, with source files without their content. -/
def Found.withEmptied (found : Found) : Found where
  projects := found.projects.map Layout.withEmptied
  files := found.files.map fun x => (x.1, emptied x.2)

theorem Found.withEmptied_append (a b : Found) :
    (a.append b).withEmptied = a.withEmptied.append b.withEmptied := by
  simp [Found.append, Found.withEmptied]

theorem filesOf_withEmptied (owner : Option Path) (found : Found) :
    filesOf owner found.withEmptied = (filesOf owner found).map emptied := by
  rw [filesOf, filesOf, Found.withEmptied, List.filterMap_map, List.map_filterMap]
  refine List.filterMap_congr fun x _ => ?_
  by_cases h : x.1 = owner <;> simp [h]

theorem assign_withEmptied (root : Path) (hasSourceDirectory : Bool) (found : Found) :
    assign root hasSourceDirectory found.withEmptied =
      (assign root hasSourceDirectory found).map withEmptied := by
  have hassigned : assigned root hasSourceDirectory found.withEmptied =
      (assigned root hasSourceDirectory found).map withEmptied := by
    simp only [assigned, filesOf_withEmptied, List.isEmpty_map]
    split <;> simp [Found.withEmptied, withEmptied]
  rw [assign_eq, assign_eq, hassigned]
  exact (List.map_mergeSort (f := withEmptied) fun _ _ _ _ => rfl).symm

/-- What is found about projects can be told from what a walk finds without the content of
sources. -/
theorem map_summary_assign (root : Path) (hasSourceDirectory : Bool) (r : Except Failure Found) :
    List.map summary <$> assign root hasSourceDirectory <$> r =
      List.map summary <$> assign root hasSourceDirectory <$> Found.withEmptied <$> r := by
  cases r with
  | error e => rfl
  | ok found =>
    refine congrArg Except.ok ?_
    rw [assign_withEmptied, List.map_map]
    exact (List.map_congr_left fun l _ => summary_withEmptied l).symm

/-! ### Directories that look the same -/

variable {rules : IgnoreRules}

/-- The same is found in two directories. -/
structure Visit.Alike (rules : IgnoreRules) (v v' : Visit) : Prop where
  owner : v.owner = v'.owner
  project : v.project = v'.project
  sources : (sourcesIn rules v.directory v.entries).map emptied =
    (sourcesIn rules v'.directory v'.entries).map emptied

theorem Visit.Alike.refl (v : Visit) : v.Alike rules v := ⟨rfl, rfl, rfl⟩

theorem Visit.Alike.withEmptied_eq {v v' : Visit} (h : v.Alike rules v')
    (projects : List Layout) :
    Found.withEmptied ⟨projects, v.files rules⟩ = Found.withEmptied ⟨projects, v'.files rules⟩ := by
  have hfiles (v : Visit) : (v.files rules).map (fun x => (x.1, emptied x.2)) =
      ((sourcesIn rules v.directory v.entries).map emptied).map fun f => (v.owner, f) := by
    simp [Visit.files]
  rw [Found.withEmptied, Found.withEmptied, hfiles, hfiles, h.owner, h.sources]

theorem forall₂_alike_refl (vs : List Visit) : List.Forall₂ (Visit.Alike rules) vs vs :=
  List.forall₂_same.mpr fun v _ => .refl v

theorem withEmptied_foundIn_cons (v : Visit) (vs : List Visit) :
    Found.withEmptied <$> foundIn rules (v :: vs) = (do
      let projects ← v.project
      (Found.withEmptied ⟨projects, v.files rules⟩).append <$>
        (Found.withEmptied <$> foundIn rules vs)) := by
  rw [foundIn]
  cases v.project with
  | error e => rfl
  | ok projects =>
    cases foundIn rules vs with
    | error e => rfl
    | ok found => exact congrArg Except.ok (Found.withEmptied_append _ _)

theorem foundIn_congr {vs vs' : List Visit} (h : List.Forall₂ (Visit.Alike rules) vs vs') :
    Found.withEmptied <$> foundIn rules vs = Found.withEmptied <$> foundIn rules vs' := by
  induction h with
  | nil => rfl
  | @cons v v' vs vs' hv _ ih =>
    simp only [withEmptied_foundIn_cons, hv.project, hv.withEmptied_eq, ih]

/-! ### One rewritten file -/

section

variable {name : String} {e e' : Entry} {before after : List (String × Entry)}

/-- Looking something up tells two entries apart under their name only. -/
theorem child?_congr {β : Type} {name' : String} (f : Option Entry → β)
    (h : name = name' → f (some e) = f (some e')) :
    f ((Entry.directory (before ++ (name, e) :: after)).child? name') =
      f ((Entry.directory (before ++ (name, e') :: after)).child? name') := by
  simp only [Entry.child?, Entry.entries, Table.find?_append, Table.find?]
  cases Table.find? name' before with
  | some _ => rfl
  | none =>
    by_cases hname : name = name'
    · simpa [hname] using h hname
    · simp [hname]

theorem isProject_congr (hkind : e.isDirectory = e'.isDirectory) :
    isProject (before ++ (name, e) :: after) = isProject (before ++ (name, e') :: after) := by
  simp [isProject, hkind]

/-- The metadata of a directory are read from its metadata files. -/
theorem ofDirectory_congr {directory : Path} (hkind : e.isDirectory = e'.isDirectory)
    (hcontent : name ∈ Metadata.fileNames → e.octets? = e'.octets?) :
    ofDirectory directory (before ++ (name, e) :: after) =
      ofDirectory directory (before ++ (name, e') :: after) := by
  have hfile {name' : String} (hmem : name' ∈ Metadata.fileNames) :
      (Entry.directory (before ++ (name, e) :: after)).fileIn? name' =
        (Entry.directory (before ++ (name, e') :: after)).fileIn? name' :=
    child?_congr (·.bind Entry.octets?) fun heq => hcontent (heq ▸ hmem)
  have hsource : ((Entry.directory (before ++ (name, e) :: after)).child?
      sourceDirectoryName).any Entry.isDirectory =
        ((Entry.directory (before ++ (name, e') :: after)).child?
          sourceDirectoryName).any Entry.isDirectory :=
    child?_congr (·.any Entry.isDirectory) fun _ => hkind
  rw [ofDirectory, ofDirectory, Metadata.ofDirectory, Metadata.ofDirectory,
    hfile List.mem_cons_self, hfile (List.mem_cons_of_mem _ List.mem_cons_self), hsource]

theorem sourcesIn_congr {directory : Path} (hkind : e.isDirectory = e'.isDirectory) :
    (sourcesIn rules directory (before ++ (name, e) :: after)).map emptied =
      (sourcesIn rules directory (before ++ (name, e') :: after)).map emptied := by
  simp only [sourcesIn, List.filterMap_append, List.map_append, List.filterMap_cons]
  cases e with
  | file old =>
    cases e' with
    | file new => split_ifs <;> rfl
    | directory _ => cases hkind
  | directory _ =>
    cases e' with
    | file _ => cases hkind
    | directory _ => rfl

/-- Directories look the same if one entry of one of them is rewritten, and what it leads to looks
the same. -/
theorem forall₂_visits_directory {owner : Option Path} {directory : Path}
    (hkind : e.isDirectory = e'.isDirectory)
    (hcontent : name ∈ Metadata.fileNames → e.octets? = e'.octets?)
    (hinner : ∀ owner, ¬ rules.ignores (directory.child name) →
      List.Forall₂ (Visit.Alike rules) (visits rules owner (directory.child name) e)
        (visits rules owner (directory.child name) e')) :
    List.Forall₂ (Visit.Alike rules)
      (visits rules owner directory (.directory (before ++ (name, e) :: after)))
      (visits rules owner directory (.directory (before ++ (name, e') :: after))) := by
  simp only [visits, isProject_congr hkind, visitsAll_eq, List.flatMap_append, List.flatMap_cons]
  refine .cons ⟨rfl, ?_, sourcesIn_congr hkind⟩ ?_
  · simp only [Visit.project, isProject_congr hkind, ofDirectory_congr hkind hcontent]
  · refine List.rel_append (forall₂_alike_refl _) (List.rel_append ?_ (forall₂_alike_refl _))
    rw [← hkind]
    split
    · rename_i hentered
      exact hinner _ (by simpa using (Bool.and_eq_true_iff.mp hentered).2)
    · exact .nil

end

theorem hasSources_congr {way : List String} {e e' : Entry} (h : Entry.Rewritten way e e') :
    hasSources (some e) = hasSources (some e') := by
  cases h with
  | file => rfl
  | directory before after inner =>
    exact child?_congr (·.any Entry.isDirectory) fun _ => inner.isDirectory_eq

/-- A rewritten file that is no metadata file of a directory that a walk enters leaves all
directories alike. -/
theorem forall₂_visits {owner : Option Path} {directory : Path} {parts : List String}
    {name : String} {e e' : Entry} (h : Entry.Rewritten (parts ++ [name]) e e')
    (hunread : name ∈ Metadata.fileNames → ¬ rules.Admits directory parts) :
    List.Forall₂ (Visit.Alike rules) (visits rules owner directory e)
      (visits rules owner directory e') := by
  induction parts generalizing owner directory e e' with
  | nil =>
    cases h with
    | directory before after hfile =>
      refine forall₂_visits_directory hfile.isDirectory_eq
        (fun hname => absurd IgnoreRules.admits_nil (hunread hname)) fun owner _ => ?_
      cases hfile
      exact .nil
  | cons part parts ih =>
    cases h with
    | directory before after hinner =>
      refine forall₂_visits_directory hinner.isDirectory_eq
        (fun _ => hinner.octets?_eq (List.concat_ne_nil _ _)) fun owner hpart => ?_
      exact ih hinner fun hname hadmits =>
        hunread hname (IgnoreRules.admits_cons.mpr ⟨hpart, hadmits⟩)

end Layout

namespace Watch

open Layout

/-! ### Changes -/

/-- The same is found in two file trees, or the search fails for the same reason. -/
def FindsSame (rules : IgnoreRules) (root : Path) (tree tree' : Entry) : Prop :=
  ∃ r r', (ofTree rules root (some tree) : Metered Unit (List Layout)).Ends r ∧
    (ofTree rules root (some tree') : Metered Unit (List Layout)).Ends r' ∧
      List.map summary <$> r = List.map summary <$> r'

/-- What is found does not depend on a file that is no metadata file of a directory that is
entered. -/
theorem findsSame_of_unread {rules : IgnoreRules} {root : Path} {tree tree' : Entry}
    {parts : List String} {name : String} (h : Entry.Rewritten (parts ++ [name]) tree tree')
    (hunread : name ∈ Metadata.fileNames → ¬ rules.Admits root parts) :
    FindsSame rules root tree tree' := by
  refine ⟨_, _, ofTree_ends rules root (some tree), ofTree_ends rules root (some tree'), ?_⟩
  have hfound : Found.withEmptied <$> foundIn rules (visitsFrom rules root (some tree)) =
      Found.withEmptied <$> foundIn rules (visitsFrom rules root (some tree')) :=
    foundIn_congr (forall₂_visits h hunread)
  rw [hasSources_congr h, map_summary_assign, hfound, ← map_summary_assign]

/-- **Changes that do not count.** In any file tree and under any rules, whatever the content of a
file is replaced by: if a change of the file does not count, then the same projects are found, with
the same names, directories, scripts, kinds, files and names of modules, and a search that fails
does so for the same reason. There is one exception: a metadata file that is left out itself, in a
directory that is entered. -/
theorem findsSame_of_not_isRelevant {rules : IgnoreRules} {root : Path} {tree tree' : Entry}
    {parts : List String} {name : String} (h : Entry.Rewritten (parts ++ [name]) tree tree')
    (hcount : ¬ isRelevant rules (root.descend (parts ++ [name])))
    (hunless : ¬ (name ∈ Metadata.fileNames ∧ rules.Admits root parts ∧
      rules.ignores (root.descend (parts ++ [name])))) :
    FindsSame rules root tree tree' := by
  refine findsSame_of_unread h fun hname hadmits => hunless ⟨hname, hadmits, ?_⟩
  by_contra hignored
  exact hcount (isRelevant_descend.mpr ⟨.inr hname, hignored⟩)

/-- A project with set-up scripts of its own and of what was built from it. -/
def shipyard (script built : List UInt8) : Entry :=
  .directory
    [("a.py", .file []), ("build", .directory [("setup.py", .file built)]),
      ("setup.py", .file script)]

/-- The rules under which a set-up script is left out. -/
def shipyardRules : IgnoreRules := { root := ⟨"/", ["ws"]⟩, patterns := ["setup.py"] }

/-- The script of what was built may say anything. -/
theorem findsSame_shipyard :
    ¬ isRelevant shipyardRules ⟨"/", ["ws", "build", "setup.py"]⟩ ∧
      FindsSame shipyardRules ⟨"/", ["ws"]⟩
        (shipyard (asciiOctets "setup(name='p')\n") [])
        (shipyard (asciiOctets "setup(name='p')\n") (asciiOctets "setup(name='q')\n")) := by
  have hcount : ¬ isRelevant shipyardRules ⟨"/", ["ws", "build", "setup.py"]⟩ := by decide +kernel
  have hrewritten : Entry.Rewritten (["build"] ++ ["setup.py"])
      (shipyard (asciiOctets "setup(name='p')\n") [])
      (shipyard (asciiOctets "setup(name='p')\n") (asciiOctets "setup(name='q')\n")) :=
    .directory [_] [_] (.directory [] [] (.file _ _))
  refine ⟨hcount, findsSame_of_not_isRelevant hrewritten hcount ?_⟩
  rintro ⟨-, hadmits, -⟩
  exact (IgnoreRules.admits_cons.mp hadmits).1 (by decide +kernel)

/-- Changes of a metadata file that is left out may change what is found. -/
theorem not_always_findsSame :
    ¬ ∀ (rules : IgnoreRules) (root : Path) (tree tree' : Entry) (parts : List String)
        (name : String), Entry.Rewritten (parts ++ [name]) tree tree' →
      ¬ isRelevant rules (root.descend (parts ++ [name])) → FindsSame rules root tree tree' := by
  intro hall
  have hrewritten : Entry.Rewritten ["setup.py"] (shipyard (asciiOctets "setup(name='p')\n") [])
      (shipyard [] []) := .directory [_, _] [] (.file _ _)
  obtain ⟨r, r', hends, hends', hsame⟩ := hall shipyardRules ⟨"/", ["ws"]⟩ _ _ [] "setup.py"
    hrewritten (by decide +kernel)
  obtain rfl := hends.unique (ends_layouts (by decide +kernel))
  obtain rfl := hends'.unique (ends_layouts (by decide +kernel))
  have hnames := congrArg (List.map fun s : Summary => s.name.text) (Except.ok.inj hsame)
  exact absurd hnames (by decide +kernel)

end Watch

end Concordance
