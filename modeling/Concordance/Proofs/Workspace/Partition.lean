import Concordance.Proofs.Workspace.Interruption
import Concordance.Proofs.Workspace.Listing
import Concordance.Proofs.Workspace.Parts

/-!
# The sources of projects

Discovery is a partition: the projects of a file tree share its sources out among them, so that each
source that is not left out is in one project, once, and that is the nearest one around it. Sources
that no project is around are in one of the root, which is there for them alone and takes the place
of no other. The projects come in strict order of how their directories are written.

All of this is said of the file tree, in whatever order a file system lists it, and of a search
under any meter, if it comes to an end at all.

## Main definitions

* `Layout.IsFound`, `Layout.IsImplicit`: the project of a directory, and that of the root
* `Layout.Partitions`: projects among which the sources of a file tree are shared out

## Main results

* `Layout.partitions_layouts`: what a walk shares out
* `Layout.partitions_of_run`: what a search under a meter does, whatever the order of entries
-/

namespace Concordance

namespace Layout

variable {rules : IgnoreRules} {root : Path} {tree : Entry} {l : Layout}

/-! ### What the projects are -/

/-- A project that lies in a file tree, with what its metadata say. -/
structure IsFound (rules : IgnoreRules) (root : Path) (tree : Entry) (place : List String)
    (l : Layout) : Prop where
  project : tree.IsProjectAt place
  admits : rules.Admits root place
  known : ∃ entries known, tree.Holds place (.directory entries) ∧
    ofDirectory (root.descend place) entries = .ok known ∧ l = { known with files := l.files }

/-- The project of a root that is none itself, for sources that no project is around. -/
structure IsImplicit (root : Path) (tree : Entry) (l : Layout) : Prop where
  alone : ¬ tree.IsProjectAt []
  needed : l.files ≠ []
  known : l = { name := .string root.name, directory := root
                hasSourceDirectory := hasSources (some tree), files := l.files }

/-- The project in a directory, or that of the root if there is none in any. -/
def IsFor (rules : IgnoreRules) (root : Path) (tree : Entry) :
    Option (List String) → Layout → Prop
  | some place => IsFound rules root tree place
  | none => IsImplicit root tree

theorem IsFor.directory_eq {nearest : Option (List String)} (h : IsFor rules root tree nearest l) :
    l.directory = root.descend (nearest.getD []) := by
  cases nearest with
  | none => rw [IsImplicit.known h, Option.getD_none, Path.descend_nil]
  | some place =>
    obtain ⟨entries, known, -, hknown, hl⟩ := IsFound.known h
    rw [hl]
    rw [ofDirectory] at hknown
    cases hmetadata : Metadata.ofDirectory (.directory entries) with
    | error e => rw [hmetadata] at hknown; cases hknown
    | ok m => rw [hmetadata] at hknown; cases hknown; rfl

/-- There is a way to the directory of a project. -/
theorem IsFor.isPart (hparts : ∀ way e, tree.Holds way e → ∀ part ∈ way, Path.IsPart part)
    {nearest : Option (List String)} (h : IsFor rules root tree nearest l) :
    ∀ part ∈ nearest.getD [], Path.IsPart part := by
  cases nearest with
  | none => exact fun part hpart => absurd hpart List.not_mem_nil
  | some place =>
    obtain ⟨name, -, octets, hholds⟩ := IsFound.project h
    exact fun part hpart => hparts _ _ hholds part (List.mem_append_left _ hpart)

/-- Projects share out the sources of a file tree among them. -/
structure Partitions (rules : IgnoreRules) (root : Path) (tree : Entry) (projects : List Layout) :
    Prop where
  /-- The sources that a project has are those that nothing on their way leaves out. -/
  given_iff : ∀ f : SourceFile, (∃ l ∈ projects, f ∈ l.files) ↔
    ∃ way name, f.path = root.descend (way ++ [name]) ∧ isSourceName name ∧
      tree.Holds (way ++ [name]) (.file f.octets) ∧ rules.Admits root (way ++ [name])
  once : ((projects.flatMap Layout.files).map SourceFile.path).Nodup
  /-- A source is in the deepest project around it. -/
  nearest : ∀ l ∈ projects, ∀ f ∈ l.files, ∃ way name nearest,
    f.path = root.descend (way ++ [name]) ∧ tree.Deepest (· <+: way) nearest ∧
      IsFor rules root tree nearest l
  /-- No project that is found is lost or replaced. -/
  kept : ∀ place, tree.IsProjectAt place → rules.Admits root place →
    ∃ l ∈ projects, IsFound rules root tree place l
  only : ∀ l ∈ projects, ∃ nearest, IsFor rules root tree nearest l
  increasing : projects.Pairwise fun a b => a.directory.text < b.directory.text

/-! ### What a walk finds -/

/-- What a walk from a root finds if metadata that cannot be read say nothing. -/
abbrev walked (rules : IgnoreRules) (root : Path) (tree : Entry) : Found :=
  found rules (visitsFrom rules root (some tree))

theorem mem_files_found {vs : List Visit} {owner : Option Path} {f : SourceFile} :
    (owner, f) ∈ (found rules vs).files ↔
      ∃ v ∈ vs, v.owner = owner ∧ f ∈ sourcesIn rules v.directory v.entries := by
  simp [found, Visit.files, and_comm]

theorem ofDirectory_eq_layout {v : Visit} (hproject : isProject v.entries) (h : ¬ v.IsSpoilt) :
    ofDirectory v.directory v.entries = .ok v.layout := by
  have hone := Visit.project_eq h
  rw [Visit.project, if_pos hproject, if_pos hproject] at hone
  cases hread : ofDirectory v.directory v.entries with
  | error e => rw [hread] at hone; cases hone
  | ok l => rw [hread] at hone; cases hone; rfl

/-! ### Every source once -/

/-- If what is kept of an element has a value of the element, then the values that are left are
among those there were. -/
theorem map_filterMap_sublist {α β γ : Type} {keep : α → Option β} {f : β → γ} {g : α → γ}
    (h : ∀ a b, keep a = some b → f b = g a) (l : List α) :
    ((l.filterMap keep).map f).Sublist (l.map g) := by
  induction l with
  | nil => exact List.Sublist.refl []
  | cons a l ih =>
    rw [List.filterMap_cons, List.map_cons]
    split
    · exact ih.cons _
    · rename_i b hb
      rw [List.map_cons, h a b hb]
      exact ih.cons_cons _

theorem map_sourcesIn_sublist (directory : Path) (entries : List (String × Entry)) :
    ((sourcesIn rules directory entries).map SourceFile.path).Sublist
      (entries.map fun x => directory.child x.1) := by
  refine map_filterMap_sublist (fun ⟨name, e⟩ f hf => ?_) entries
  cases e with
  | directory _ => cases hf
  | file octets =>
    obtain ⟨-, hf⟩ := Option.ite_none_right_eq_some.mp hf
    cases hf
    rfl

/-- A walk comes by no source twice. -/
theorem nodup_files_found (h : tree.isDistinct) :
    ((walked rules root tree).files.map fun x => x.2.path).Nodup := by
  have hvisits : (visitsFrom rules root (some tree)).Pairwise
      fun v w => v.directory ≠ w.directory :=
    List.pairwise_map.mp (nodup_visits none root h)
  have hpaths (v : Visit) : (v.files rules).map (fun x => x.2.path) =
      (sourcesIn rules v.directory v.entries).map SourceFile.path := by
    rw [Visit.files, List.map_map]
    rfl
  rw [walked, found, List.map_flatMap, List.nodup_flatMap]
  refine ⟨fun v hv => ?_, hvisits.imp fun {v w} hne => ?_⟩
  · obtain ⟨way, -, -, hholds, -⟩ := deepest_of_mem_visits h hv
    have hnames := Entry.nodup_entries (Entry.isDistinct_of_holds h hholds)
    have hchildren := hnames.map fun _ _ heq => ((Path.child_inj (p := v.directory)).mp heq).2
    rw [List.map_map] at hchildren
    rw [hpaths]
    exact hchildren.sublist (map_sourcesIn_sublist _ _)
  · intro path hpath hpath'
    simp only [hpaths] at hpath hpath'
    obtain ⟨f, hf, rfl⟩ := List.mem_map.mp hpath
    obtain ⟨g, hg, heq⟩ := List.mem_map.mp hpath'
    obtain ⟨x, -, hx, -⟩ := mem_sourcesIn hf
    obtain ⟨y, -, hy, -⟩ := mem_sourcesIn hg
    rw [hx, hy] at heq
    exact hne (Path.child_inj.mp heq).1.symm

/-- Sources that are shared out by different owners are shared out once. -/
theorem nodup_flatMap_filesOf {found : Found}
    (h : (found.files.map fun x => x.2.path).Nodup) {owners : List (Option Path)}
    (howners : owners.Nodup) :
    ((owners.flatMap fun owner => filesOf owner found).map SourceFile.path).Nodup := by
  rw [List.map_flatMap, List.nodup_flatMap]
  refine ⟨fun owner _ => ?_, howners.imp fun {owner owner'} hne path hpath hpath' => ?_⟩
  · refine h.sublist (map_filterMap_sublist (fun x f hf => ?_) found.files)
    obtain ⟨-, hf⟩ := Option.ite_none_right_eq_some.mp hf
    cases hf
    rfl
  · obtain ⟨f, hf, rfl⟩ := List.mem_map.mp hpath
    obtain ⟨g, hg, heq⟩ := List.mem_map.mp hpath'
    have hsame := List.inj_on_of_nodup_map h (mem_filesOf.mp hf) (mem_filesOf.mp hg) heq.symm
    exact hne (Prod.mk.inj hsame).1

theorem flatMap_files_ofLoose (root : Path) (hasSourceDirectory : Bool) (files : List SourceFile) :
    (ofLoose root hasSourceDirectory files).flatMap Layout.files = files := by
  rw [ofLoose]
  split
  · rename_i hnil
    exact (List.isEmpty_iff.mp hnil).symm
  · simp

/-- The projects and the root have the sources that belong to them. -/
theorem flatMap_files_assigned (root : Path) (hasSourceDirectory : Bool) (found : Found) :
    (assigned root hasSourceDirectory found).flatMap Layout.files =
      (found.projects.map (fun l : Layout => some l.directory) ++ [none]).flatMap
        fun owner => filesOf owner found := by
  rw [assigned_eq_append, List.flatMap_append, List.flatMap_append, flatMap_files_ofLoose, owned,
    List.flatMap_map, List.flatMap_map, List.flatMap_singleton]

/-! ### The projects of a walk -/

section

variable (hdistinct : tree.isDistinct)

include hdistinct

/-- If there are sources that no project is around, the root is none. -/
theorem isImplicit_of_mem_ofLoose
    (hl : l ∈ ofLoose root (hasSources (some tree)) (filesOf none (walked rules root tree))) :
    IsImplicit root tree l ∧ l.files = filesOf none (walked rules root tree) := by
  rw [ofLoose] at hl
  split at hl
  · cases hl
  · rename_i hloose
    obtain rfl := List.mem_singleton.mp hl
    have hne : filesOf none (walked rules root tree) ≠ [] :=
      fun hnil => hloose (List.isEmpty_iff.mpr hnil)
    refine ⟨⟨?_, hne, rfl⟩, rfl⟩
    -- one of them is in a directory that no project is around, and the root is
    obtain ⟨f, hf⟩ := List.exists_mem_of_ne_nil _ hne
    obtain ⟨v, hv, hnone, -⟩ := mem_files_found.mp (mem_filesOf.mp hf)
    obtain ⟨way, nearest, -, -, hdeepest, howner⟩ := deepest_of_mem_visits hdistinct hv
    rw [hnone] at howner
    obtain rfl : nearest = none := Option.map_eq_none_iff.mp howner.symm
    cases hdeepest with
    | none h => exact h [] (List.nil_prefix)

variable (hlegible : ∀ v ∈ visitsFrom rules root (some tree), ¬ v.IsSpoilt)

include hlegible

/-- A directory with a metadata file that a walk comes to is a project that is found. -/
theorem isFound_of_mem_visits {v : Visit} (hv : v ∈ visitsFrom rules root (some tree))
    (hproject : isProject v.entries) {place : List String}
    (hplace : v.directory = root.descend place) (files : List SourceFile) :
    IsFound rules root tree place { v.layout with files } := by
  obtain ⟨way, hway, hholds, hadmits⟩ := holds_of_mem_visits hv
  obtain rfl : way = place := descend_inj.mp (hway.symm.trans hplace)
  refine ⟨(Entry.isProjectAt_iff hdistinct hholds).mpr hproject, hadmits, v.entries, v.layout,
    hholds, ?_, rfl⟩
  rw [← hplace]
  exact ofDirectory_eq_layout hproject (hlegible v hv)

/-- A project that is found belongs to the directory that its sources say that they belong to. -/
theorem isFound_of_mem_owned (hl : l ∈ owned (walked rules root tree)) :
    ∃ place, IsFound rules root tree place l ∧
      l.files = filesOf (some (root.descend place)) (walked rules root tree) := by
  obtain ⟨_, hmem, rfl⟩ := List.mem_map.mp hl
  obtain ⟨v, hv, rfl⟩ := List.mem_map.mp hmem
  obtain ⟨hv, hproject⟩ := List.mem_filter.mp hv
  obtain ⟨place, hplace, -⟩ := holds_of_mem_visits hv
  exact ⟨place, isFound_of_mem_visits hdistinct hlegible hv hproject hplace _,
    congrArg (fun d => filesOf (some d) _) hplace⟩

/-- A project is that of a directory or of the root, and has the sources that belong there. -/
theorem isFor_of_mem_layouts (hl : l ∈ layouts rules root (some tree)) :
    ∃ nearest, IsFor rules root tree nearest l ∧
      l.files = filesOf (nearest.map root.descend) (walked rules root tree) := by
  rw [layouts, assign_eq, List.mem_mergeSort, assigned_eq_append] at hl
  rcases List.mem_append.mp hl with hl | hl
  · obtain ⟨place, hfound, hfiles⟩ := isFound_of_mem_owned hdistinct hlegible hl
    exact ⟨some place, hfound, hfiles⟩
  · obtain ⟨himplicit, hfiles⟩ := isImplicit_of_mem_ofLoose hdistinct hl
    exact ⟨none, himplicit, hfiles⟩

theorem nodup_projects :
    ((walked rules root tree).projects.map Layout.directory).Nodup := by
  have hall : ∀ e ∈ some tree, e.isDistinct := fun e he => Option.some.inj he ▸ hdistinct
  exact nodup_foundIn hall (foundIn_eq rules hlegible)

/-- No two projects have one directory. -/
theorem pairwise_directory_ne :
    (layouts rules root (some tree)).Pairwise fun a b => a.directory ≠ b.directory := by
  rw [layouts, assign_eq, (List.mergeSort_perm _ _).pairwise_iff fun h => h.symm,
    assigned_eq_append, List.pairwise_append]
  refine ⟨?_, ?_, fun a ha b hb heq => ?_⟩
  · rw [owned, List.pairwise_map]
    exact List.pairwise_map.mp (nodup_projects hdistinct hlegible)
  · rw [ofLoose]
    split
    · exact List.Pairwise.nil
    · exact List.pairwise_singleton _ _
  · obtain ⟨place, hfound, -⟩ := isFound_of_mem_owned hdistinct hlegible ha
    obtain ⟨himplicit, -⟩ := isImplicit_of_mem_ofLoose hdistinct hb
    have hplace : IsFor rules root tree (some place) a := hfound
    have hroot : IsFor rules root tree none b := himplicit
    rw [hplace.directory_eq, hroot.directory_eq] at heq
    obtain rfl : place = [] := descend_inj.mp heq
    exact himplicit.alone hfound.project

/-- Sources are given to one project, and once. -/
theorem nodup_flatMap_files :
    (((layouts rules root (some tree)).flatMap Layout.files).map SourceFile.path).Nodup := by
  have hnodup := nodup_projects hdistinct hlegible
  have howners : ((walked rules root tree).projects.map (fun l : Layout => some l.directory) ++
      [none]).Nodup := by
    refine List.nodup_append.mpr ⟨?_, List.nodup_singleton none, ?_⟩
    · have hsome := hnodup.map (Option.some_injective Path)
      rwa [List.map_map] at hsome
    · rintro _ hsome _ hnone rfl
      obtain ⟨l, -, heq⟩ := List.mem_map.mp hsome
      rw [List.mem_singleton.mp hnone] at heq
      cases heq
  rw [layouts, assign_eq,
    (((List.mergeSort_perm _ _).flatMap_right Layout.files).map SourceFile.path).nodup_iff,
    flatMap_files_assigned]
  exact nodup_flatMap_filesOf (nodup_files_found hdistinct) howners

end

/-- **A walk shares out the sources of a file tree** among the projects nearest to them. -/
theorem partitions_layouts (hdistinct : tree.isDistinct)
    (hparts : ∀ way e, tree.Holds way e → ∀ part ∈ way, Path.IsPart part)
    (hlegible : ∀ v ∈ visitsFrom rules root (some tree), ¬ v.IsSpoilt) :
    Partitions rules root tree (layouts rules root (some tree)) where
  given_iff _ := exists_layout_iff
  once := nodup_flatMap_files hdistinct hlegible
  nearest l hl f hf := by
    obtain ⟨nearest, hfor, hfiles⟩ := isFor_of_mem_layouts hdistinct hlegible hl
    rw [hfiles, mem_filesOf, mem_files_found] at hf
    obtain ⟨v, hv, howner, hsource⟩ := hf
    obtain ⟨way, around, hway, -, hdeepest, hbelongs⟩ := deepest_of_mem_visits hdistinct hv
    obtain ⟨name, -, hpath, -, -⟩ := mem_sourcesIn_iff.mp hsource
    have hsame : around = nearest :=
      Option.map_injective (fun _ _ => descend_inj.mp) (hbelongs.symm.trans howner)
    refine ⟨way, name, nearest, ?_, hsame ▸ hdeepest, hfor⟩
    rw [hpath, hway, Path.descend_child]
  kept place hproject hadmits := by
    obtain ⟨name, hname, octets, hfile⟩ := hproject
    obtain ⟨entries, hholds, hmem⟩ := Entry.holds_concat.mp hfile
    obtain ⟨v, hv, hplace, rfl⟩ := exists_mem_visits none hholds hadmits
    have hproject := (Entry.isProjectAt_iff hdistinct hholds).mp ⟨name, hname, octets, hfile⟩
    have hv : v ∈ visitsFrom rules root (some tree) := hv
    refine ⟨_, ?_, isFound_of_mem_visits hdistinct hlegible hv hproject hplace
      (filesOf (some v.directory) (walked rules root tree))⟩
    rw [layouts, assign_eq, List.mem_mergeSort, assigned_eq_append]
    refine List.mem_append_left _ (List.mem_map.mpr ⟨v.layout, ?_, rfl⟩)
    exact List.mem_map_of_mem (List.mem_filter.mpr ⟨hv, hproject⟩)
  only l hl := by
    obtain ⟨nearest, hfor, -⟩ := isFor_of_mem_layouts hdistinct hlegible hl
    exact ⟨nearest, hfor⟩
  increasing := by
    have hsorted : (layouts rules root (some tree)).Pairwise fun a b => le a b :=
      List.pairwise_mergeSort le_trans le_total _
    refine (hsorted.and (pairwise_directory_ne hdistinct hlegible)).imp_of_mem ?_
    rintro a b ha hb ⟨hle, hne⟩
    obtain ⟨place, ha, -⟩ := isFor_of_mem_layouts hdistinct hlegible ha
    obtain ⟨place', hb, -⟩ := isFor_of_mem_layouts hdistinct hlegible hb
    have hle : a.directory.text ≤ b.directory.text := of_decide_eq_true hle
    refine String.not_le.mp fun hge => hne ?_
    have heq := String.le_antisymm hle hge
    rw [ha.directory_eq, hb.directory_eq] at heq ⊢
    rw [(Path.text_descend_inj (ha.isPart hparts) (hb.isPart hparts)).mp heq]

/-- Projects are sorted by putting one after the other where it belongs. -/
theorem layouts_eq_insertionSort (rules : IgnoreRules) (root : Path) (tree : Option Entry) :
    layouts rules root tree =
      (assigned root (hasSources tree)
        (found rules (visitsFrom rules root tree))).insertionSort fun a b => le a b := by
  rw [layouts, assign_eq]
  generalize assigned root (hasSources tree) _ = projects
  induction projects with
  | nil => exact List.mergeSort_nil
  | cons l projects ih =>
    rw [mergeSort_cons_eq le_trans le_total, ih]
    rfl

/-! ### Whatever the order of entries -/

theorem IsFor.of_arranged (hdistinct : tree.isDistinct) {nearest : Option (List String)}
    (h : IsFor rules root tree.arranged nearest l) : IsFor rules root tree nearest l := by
  cases nearest with
  | none =>
    have himplicit : IsImplicit root tree.arranged l := h
    refine IsImplicit.mk (Entry.isProjectAt_arranged.not.mp himplicit.alone) himplicit.needed ?_
    rw [← Entry.hasSources_arranged hdistinct]
    exact himplicit.known
  | some place =>
    have hfound : IsFound rules root tree.arranged place l := h
    obtain ⟨arranged, known, hholds, hknown, hl⟩ := hfound.known
    obtain ⟨e, hholds, harranged⟩ := Entry.holds_arranged.mp hholds
    refine IsFound.mk (Entry.isProjectAt_arranged.mp hfound.project) hfound.admits ?_
    cases e with
    | file octets =>
      rw [Entry.arranged_file] at harranged
      cases harranged
    | directory entries =>
      rw [ofDirectory_arranged (Entry.isDistinct_of_holds hdistinct hholds) harranged] at hknown
      exact ⟨entries, known, hholds, hknown, hl⟩

/-- Whoever shares out what is arranged shares out what there is. -/
theorem Partitions.of_arranged (hdistinct : tree.isDistinct) {projects : List Layout}
    (h : Partitions rules root tree.arranged projects) : Partitions rules root tree projects where
  given_iff f := by
    rw [h.given_iff f]
    simp only [Entry.holds_file_arranged]
  once := h.once
  nearest l hl f hf := by
    obtain ⟨way, name, nearest, hpath, hdeepest, hfor⟩ := h.nearest l hl f hf
    exact ⟨way, name, nearest, hpath,
      hdeepest.congr (fun _ => Iff.rfl) fun _ => Entry.isProjectAt_arranged,
      hfor.of_arranged hdistinct⟩
  kept place hproject hadmits := by
    obtain ⟨l, hl, hfound⟩ := h.kept place (Entry.isProjectAt_arranged.mpr hproject) hadmits
    have hfor : IsFor rules root tree.arranged (some place) l := hfound
    exact ⟨l, hl, hfor.of_arranged hdistinct⟩
  only l hl := by
    obtain ⟨nearest, hfor⟩ := h.only l hl
    exact ⟨nearest, hfor.of_arranged hdistinct⟩
  increasing := h.increasing

/-- A search that comes to an end has come by no metadata that cannot be read. -/
theorem legible_of_ends {projects : List Layout}
    (h : (ofTree rules root (some tree) : Metered Unit (List Layout)).Ends (.ok projects)) :
    ∀ v ∈ visitsFrom rules root (some tree), ¬ v.IsSpoilt := by
  intro v hv hspoilt
  have hends := ofTree_ends (σ := Unit) rules root (some tree)
  obtain ⟨_, _, _, _, _, hfound⟩ := foundIn_error rules ⟨v, hv, hspoilt⟩
  rw [hfound] at hends
  cases h.unique hends

/-- **Discovery is a partition.** In whatever order a file system lists the entries of directories,
a search that is not called off shares the sources out among the projects nearest to them. -/
theorem partitions_of_run (hdistinct : tree.isDistinct) (hproper : tree.isProper) {σ : Type}
    {m : Meter} {s : σ} {projects : List Layout}
    (hrun : ((ofTree rules root (some tree.arranged) : Metered σ (List Layout)).runFrom m s).1 =
      .ok projects) : Partitions rules root tree projects := by
  have hends := (plain_ofTree rules root (some tree.arranged)).ends_of_ok (τ := Unit) hrun
  obtain rfl := Watch.eq_layouts_of_ends hends
  refine (partitions_layouts (Entry.isDistinct_arranged hdistinct) ?_
    (legible_of_ends hends)).of_arranged hdistinct
  intro way e hholds
  obtain ⟨e', hholds', -⟩ := Entry.holds_arranged.mp hholds
  exact Entry.isPart_of_holds hproper hholds'

/-- A directory as a file system lists it: with sources beside a project that has another one in it,
and with a build. -/
def yard : Entry :=
  .directory
    [("z.py", .file []), ("nested", .directory
      [("setup.py", .file []), ("b.py", .file []), ("inner", .directory
          [("pyproject.toml", .file []), ("c.py", .file [])]),
        ("build", .directory [("x.py", .file [])]), ("deep", .directory [("d.py", .file [])])]),
      ("lib", .directory [("e.py", .file []), ("notes.txt", .file [])])]

/-- The root becomes a project for the sources beside, and comes first. -/
theorem partitions_yard :
    let rules : IgnoreRules := { root := ⟨"/", ["ws"]⟩ }
    let search : Metered Unit (List Layout) := ofTree rules rules.root (some yard.arranged)
    ∃ projects, yard.isDistinct ∧ yard.isProper ∧ (search.runFrom {} ()).1 = .ok projects ∧
      projects.map (fun l => (l.directory.text, l.files.map fun f => f.path.text)) =
        [("/ws", ["/ws/z.py", "/ws/lib/e.py"]),
          ("/ws/nested", ["/ws/nested/b.py", "/ws/nested/deep/d.py"]),
          ("/ws/nested/inner", ["/ws/nested/inner/c.py"])] ∧
      Partitions rules rules.root yard projects := by
  intro rules search
  have hdistinct : yard.isDistinct := by decide +kernel
  have hproper : yard.isProper := by decide +kernel
  have hlegible : ∀ v ∈ visitsFrom rules rules.root (some yard.arranged), ¬ v.IsSpoilt := by
    decide +kernel
  have hrun := (Watch.ends_layouts hlegible {} () rfl).1
  refine ⟨_, hdistinct, hproper, hrun, ?_, partitions_of_run hdistinct hproper hrun⟩
  rw [layouts_eq_insertionSort]
  decide +kernel

end Layout

end Concordance
