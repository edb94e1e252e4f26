import Concordance.Proofs.Watch.Unnoticed
import Concordance.Proofs.Workspace.Adding
import Mathlib.Data.List.Sort

/-!
# One more source

What a walk finds once a source was added to a file tree: the same projects, and the file as one
more of those that are found, unless something on its path is left out. It is given to one project,
since a walk comes to no directory twice. If it is the first file that no project lies around, then
the root becomes one more project, and it is sorted in among the others without moving them.

## Main definitions

* `OneMore`: lists of which one has one more element
* `Layout.Found.Grown`, `Layout.Grown`: what is found, and projects, of which one has one more file

## Main results

* `mergeSort_middle`: where one more element is sorted in
* `Layout.exists_foundIn_added`: what a walk finds once a source was added
* `Layout.grown_assign`: one more file is given to one project
-/

namespace Concordance

/-! ### One more element -/

/-- The second list is the first one with one more element somewhere. -/
def OneMore {α : Type} (x : α) (l l' : List α) : Prop :=
  ∃ front back, l = front ++ back ∧ l' = front ++ x :: back

namespace OneMore

variable {α β : Type} {x : α} {l l' : List α}

theorem nil (x : α) : OneMore x [] [x] := ⟨[], [], rfl, rfl⟩

theorem append_left (h : OneMore x l l') (k : List α) : OneMore x (k ++ l) (k ++ l') := by
  obtain ⟨front, back, rfl, rfl⟩ := h
  exact ⟨k ++ front, back, (List.append_assoc ..).symm, (List.append_assoc ..).symm⟩

theorem append_right (h : OneMore x l l') (k : List α) : OneMore x (l ++ k) (l' ++ k) := by
  obtain ⟨front, back, rfl, rfl⟩ := h
  exact ⟨front, back ++ k, List.append_assoc .., List.append_assoc ..⟩

theorem map (h : OneMore x l l') (f : α → β) : OneMore (f x) (l.map f) (l'.map f) := by
  obtain ⟨front, back, rfl, rfl⟩ := h
  exact ⟨front.map f, back.map f, List.map_append .., by simp⟩

theorem filterMap {f : α → Option β} {y : β} (h : OneMore x l l') (hx : f x = some y) :
    OneMore y (l.filterMap f) (l'.filterMap f) := by
  obtain ⟨front, back, rfl, rfl⟩ := h
  exact ⟨front.filterMap f, back.filterMap f, List.filterMap_append .., by simp [hx]⟩

theorem filterMap_eq {f : α → Option β} (h : OneMore x l l') (hx : f x = none) :
    l'.filterMap f = l.filterMap f := by
  obtain ⟨front, back, rfl, rfl⟩ := h
  simp [hx]

end OneMore

/-! ### Sorting -/

section

variable {α : Type} {le : α → α → Bool} (htrans : ∀ a b c, le a b → le b c → le a c)
  (htotal : ∀ a b, le a b || le b a)

include htrans htotal

/-- An element is sorted in behind those that have to stand in front of it. -/
theorem mergeSort_cons_eq (a : α) (l : List α) :
    (a :: l).mergeSort le = (l.mergeSort le).orderedInsert (fun a b => le a b) a := by
  obtain ⟨front, back, hcons, hl, hfront⟩ := List.mergeSort_cons htrans htotal a l
  have hsorted := List.pairwise_mergeSort htrans htotal (a :: l)
  rw [hcons] at hsorted
  rw [hcons, hl]
  clear hcons hl
  induction front with
  | nil =>
    cases back with
    | nil => rfl
    | cons b back => exact (if_pos (List.rel_of_pairwise_cons hsorted List.mem_cons_self)).symm
  | cons b front ih =>
    have hb : ¬ le a b := by simpa using hfront b List.mem_cons_self
    rw [List.cons_append, List.cons_append, List.orderedInsert_cons, if_neg hb,
      ← ih (fun c hc => hfront c (List.mem_cons_of_mem _ hc)) hsorted.tail]

omit htotal in
/-- Where an element stands among sorted ones, others that compare alike can stand in its place. -/
theorem orderedInsert_middle (a x : α) {front back : List α}
    (hsorted : (front ++ x :: back).Pairwise fun a b => le a b) :
    ∃ front' back', (front ++ back).orderedInsert (fun a b => le a b) a = front' ++ back' ∧
      ∀ y, le a y = le a x →
        (front ++ y :: back).orderedInsert (fun a b => le a b) a = front' ++ y :: back' := by
  induction front with
  | nil =>
    by_cases ha : le a x
    · refine ⟨[a], back, ?_, fun y hy => if_pos (hy.trans ha)⟩
      cases back with
      | nil => rfl
      | cons b back =>
        exact if_pos (htrans _ _ _ ha (List.rel_of_pairwise_cons hsorted List.mem_cons_self))
    · exact ⟨[], _, rfl, fun y hy => if_neg fun hle => ha (hy.symm.trans hle)⟩
  | cons b front ih =>
    by_cases hb : le a b
    · exact ⟨a :: b :: front, back, if_pos hb, fun y _ => if_pos hb⟩
    · obtain ⟨front', back', heq, hmiddle⟩ := ih hsorted.tail
      refine ⟨b :: front', back', ?_, fun y hy => ?_⟩
      · rw [List.cons_append, List.orderedInsert_cons, if_neg hb, heq, List.cons_append]
      · rw [List.cons_append, List.orderedInsert_cons, if_neg hb, hmiddle y hy, List.cons_append]

/-- One more element is sorted in somewhere and leaves the others in order, and it depends on how it
compares with them alone where that is. -/
theorem mergeSort_middle (front back : List α) (x : α) :
    ∃ front' back', (front ++ back).mergeSort le = front' ++ back' ∧
      ∀ y, (∀ b, le b y = le b x) → le y = le x →
        (front ++ y :: back).mergeSort le = front' ++ y :: back' := by
  induction front with
  | nil =>
    refine ⟨_, _, (List.takeWhile_append_dropWhile (p := fun b => ¬ le x b)).symm, fun y _ hy => ?_⟩
    rw [List.nil_append, List.nil_append, mergeSort_cons_eq htrans htotal,
      List.orderedInsert_eq_take_drop, hy]
  | cons a front ih =>
    obtain ⟨front', back', heq, hmiddle⟩ := ih
    have hsorted := List.pairwise_mergeSort htrans htotal (front ++ x :: back)
    rw [hmiddle x (fun _ => rfl) rfl] at hsorted
    obtain ⟨front'', back'', heq', hmiddle'⟩ := orderedInsert_middle htrans a x hsorted
    refine ⟨front'', back'', ?_, fun y hy hy' => ?_⟩
    · rw [List.cons_append, mergeSort_cons_eq htrans htotal, heq, heq']
    · rw [List.cons_append, mergeSort_cons_eq htrans htotal, hmiddle y hy hy', hmiddle' y (hy a)]

end

namespace Layout

/-! ### One more file -/

/-- What is found with one more file, if it is found at all. -/
structure Found.Grown (f : SourceFile) (found found' : Found) : Prop where
  projects : found'.projects = found.projects
  files : found'.files = found.files ∨ ∃ owner, OneMore (owner, f) found.files found'.files

namespace Found.Grown

variable {f : SourceFile} {found found' : Found}

theorem refl (found : Found) : Grown f found found := ⟨rfl, .inl rfl⟩

theorem append_left (h : Grown f found found') (a : Found) :
    Grown f (a.append found) (a.append found') where
  projects := congrArg (a.projects ++ ·) h.projects
  files := h.files.imp (congrArg (a.files ++ ·)) fun ⟨owner, hmore⟩ =>
    ⟨owner, hmore.append_left a.files⟩

theorem append_right (h : Grown f found found') (a : Found) :
    Grown f (found.append a) (found'.append a) where
  projects := congrArg (· ++ a.projects) h.projects
  files := h.files.imp (congrArg (· ++ a.files)) fun ⟨owner, hmore⟩ =>
    ⟨owner, hmore.append_right a.files⟩

end Found.Grown

variable {rules : IgnoreRules} {name : String} {octets : List UInt8}

/-- A source that is added to a directory is found there unless it is left out. -/
theorem files_here (owner : Option Path) (directory : Path) (before after : List (String × Entry)) :
    let files := Visit.files rules ⟨owner, directory, before ++ after⟩
    let files' := Visit.files rules ⟨owner, directory, before ++ (name, .file octets) :: after⟩
    files' = files ∨ OneMore (owner, ⟨directory.child name, octets⟩) files files' := by
  intro files files'
  simp only [files, files', Visit.files, sourcesIn, List.filterMap_append, List.filterMap_cons]
  split
  · exact .inl rfl
  · rename_i f hf
    obtain ⟨-, hf⟩ := Option.ite_none_right_eq_some.mp hf
    cases hf
    exact .inr (OneMore.map ⟨_, _, rfl, rfl⟩ _)

theorem child?_here (e : Entry) (before after : List (String × Entry)) {name' : String}
    (hname : name ≠ name') :
    (Entry.directory (before ++ (name, e) :: after)).child? name' =
      (Entry.directory (before ++ after)).child? name' := by
  simp [Entry.child?, Entry.entries, Table.find?_append, Table.find?, hname]

/-- A source is looked up neither as a metadata file nor as the directory for sources. -/
theorem ne_of_isSourceName (hname : isSourceName name) :
    name ≠ Metadata.tomlName ∧ name ≠ Metadata.scriptName ∧ name ≠ sourceDirectoryName := by
  have hsource : ∀ n ∈ [Metadata.tomlName, Metadata.scriptName, sourceDirectoryName],
      ¬ isSourceName n := by decide +kernel
  refine ⟨?_, ?_, ?_⟩ <;> rintro rfl <;> exact hsource _ (by simp) hname

/-- A source does not change what project its directory is. -/
theorem project_here (hname : isSourceName name) (octets : List UInt8) (owner : Option Path)
    (directory : Path) (before after : List (String × Entry)) :
    isProject (before ++ (name, .file octets) :: after) = isProject (before ++ after) ∧
      Visit.project ⟨owner, directory, before ++ (name, .file octets) :: after⟩ =
        Visit.project ⟨owner, directory, before ++ after⟩ := by
  obtain ⟨htoml, hscript, hsource⟩ := ne_of_isSourceName hname
  have hproject : isProject (before ++ (name, .file octets) :: after) =
      isProject (before ++ after) := by
    simp [isProject, Metadata.fileNames, htoml, hscript]
  refine ⟨hproject, ?_⟩
  simp only [Visit.project, hproject, ofDirectory, Metadata.ofDirectory, Entry.fileIn?,
    child?_here _ before after htoml, child?_here _ before after hscript,
    child?_here _ before after hsource]

theorem foundIn_cons_eq_ok {v : Visit} {vs : List Visit} {found : Found} :
    foundIn rules (v :: vs) = .ok found ↔
      ∃ projects more, v.project = .ok projects ∧ foundIn rules vs = .ok more ∧
        Found.append ⟨projects, v.files rules⟩ more = found := by
  rw [foundIn]
  cases v.project with
  | error e => exact ⟨nofun, nofun⟩
  | ok projects =>
    cases foundIn rules vs with
    | error e => exact ⟨nofun, nofun⟩
    | ok more =>
      constructor
      · rintro ⟨⟩
        exact ⟨projects, more, rfl, rfl, rfl⟩
      · rintro ⟨_, _, ⟨⟩, ⟨⟩, rfl⟩
        rfl

theorem foundIn_append_eq_ok {vs ws : List Visit} {found : Found} :
    foundIn rules (vs ++ ws) = .ok found ↔
      ∃ first more, foundIn rules vs = .ok first ∧ foundIn rules ws = .ok more ∧
        first.append more = found := by
  rw [foundIn_append]
  cases foundIn rules vs with
  | error e => exact ⟨nofun, nofun⟩
  | ok first =>
    cases foundIn rules ws with
    | error e => exact ⟨nofun, nofun⟩
    | ok more =>
      constructor
      · rintro ⟨⟩
        exact ⟨first, more, rfl, rfl, rfl⟩
      · rintro ⟨_, _, ⟨⟩, ⟨⟩, rfl⟩
        rfl

theorem exists_foundIn_ite {entered : Bool} {vs vs' : List Visit} {f : SourceFile} {found : Found}
    (h : ∀ found, foundIn rules vs = .ok found →
      ∃ found', foundIn rules vs' = .ok found' ∧ found.Grown f found')
    (hfound : foundIn rules (if entered then vs else []) = .ok found) :
    ∃ found', foundIn rules (if entered then vs' else []) = .ok found' ∧ found.Grown f found' := by
  cases entered with
  | false => exact ⟨found, hfound, .refl found⟩
  | true => exact h found hfound

/-- A walk finds what it found before and the file, unless it does not come to it. -/
theorem exists_foundIn_added (hname : isSourceName name) {way : List String} {e e' : Entry}
    (h : Entry.Added name octets way e e') (owner : Option Path) (directory : Path)
    {found : Found} (hfound : foundIn rules (visits rules owner directory e) = .ok found) :
    ∃ found', foundIn rules (visits rules owner directory e') = .ok found' ∧
      found.Grown ⟨directory.descend (way ++ [name]), octets⟩ found' := by
  induction h generalizing owner directory found with
  | here before after hnew =>
    obtain ⟨hproject, hsame⟩ := project_here hname octets
      (if isProject (before ++ after) then some directory else owner) directory before after
    have hrest (owner : Option Path) : visitsAll rules owner directory
        (before ++ (name, .file octets) :: after) =
          visitsAll rules owner directory (before ++ after) := by
      simp [visitsAll_eq, Entry.isDirectory]
    rw [visits, foundIn_cons_eq_ok] at hfound
    obtain ⟨projects, more, hprojects, hmore, rfl⟩ := hfound
    rw [visits, hproject, hrest]
    refine ⟨_, foundIn_cons_eq_ok.mpr ⟨projects, more, hsame.trans hprojects, hmore, rfl⟩, ?_⟩
    have hhere (owner : Option Path) : Found.Grown ⟨directory.child name, octets⟩
        ⟨projects, Visit.files rules ⟨owner, directory, before ++ after⟩⟩
        ⟨projects, Visit.files rules
          ⟨owner, directory, before ++ (name, .file octets) :: after⟩⟩ :=
      ⟨rfl, (files_here owner directory before after).imp_right fun hone => ⟨owner, hone⟩⟩
    exact (hhere _).append_right more
  | @within part rest e e' before after inner ih =>
    have hkind : e.isDirectory = e'.isDirectory :=
      inner.isDirectory.1.trans inner.isDirectory.2.symm
    have hoctets : e.octets? = e'.octets? := by cases inner <;> rfl
    have hsources : sourcesIn rules directory (before ++ (part, e') :: after) =
        sourcesIn rules directory (before ++ (part, e) :: after) := by
      cases inner <;> simp [sourcesIn]
    rw [visits, foundIn_cons_eq_ok] at hfound
    obtain ⟨projects, more, hprojects, hmore, rfl⟩ := hfound
    rw [visitsAll_eq, List.flatMap_append, List.flatMap_cons, foundIn_append_eq_ok] at hmore
    obtain ⟨first, last, hfirst, hlast, rfl⟩ := hmore
    rw [foundIn_append_eq_ok] at hlast
    obtain ⟨mid, last, hmid, hlast, rfl⟩ := hlast
    obtain ⟨mid', hmid', hgrown⟩ := exists_foundIn_ite (fun _ => ih _ _) hmid
    rw [Path.child_descend] at hgrown
    rw [visits, ← isProject_congr hkind]
    refine ⟨_, foundIn_cons_eq_ok.mpr ⟨projects, first.append (mid'.append last), ?_, ?_, rfl⟩, ?_⟩
    · rw [Visit.project, ← isProject_congr hkind, ← ofDirectory_congr hkind fun _ => hoctets]
      exact hprojects
    · rw [visitsAll_eq, List.flatMap_append, List.flatMap_cons, ← hkind]
      exact foundIn_append_eq_ok.mpr
        ⟨first, _, hfirst, foundIn_append_eq_ok.mpr ⟨mid', last, hmid', hlast, rfl⟩, rfl⟩
    · rw [Visit.files, Visit.files, hsources]
      exact ((hgrown.append_right last).append_left first).append_left _

/-! ### Directories of projects -/

theorem descend_inj {directory : Path} {a b : List String} :
    directory.descend a = directory.descend b ↔ a = b := by
  simp [Path.descend]

mutual

/-- A walk comes to no directory twice. -/
theorem nodup_visits (owner : Option Path) (directory : Path) :
    ∀ {e : Entry}, e.isDistinct →
      ((visits rules owner directory e).map Visit.directory).Nodup
  | .file _, _ => by
    rw [visits]
    exact List.nodup_nil
  | .directory entries, h => by
    rw [Entry.isDistinct] at h
    rw [visits, List.map_cons, List.nodup_cons]
    refine ⟨fun hmem => ?_, nodup_visitsAll _ directory h⟩
    obtain ⟨v, hv, hdirectory⟩ := List.mem_map.mp hmem
    obtain ⟨part, rest, -, -, hv, -⟩ := holds_of_mem_visitsAll hv
    rw [hv, ← directory.descend_nil, Path.descend_descend, descend_inj] at hdirectory
    cases hdirectory

theorem nodup_visitsAll (owner : Option Path) (directory : Path) :
    ∀ {entries : List (String × Entry)}, Entry.areDistinct entries →
      ((visitsAll rules owner directory entries).map Visit.directory).Nodup
  | [], _ => by
    rw [visitsAll]
    exact List.nodup_nil
  | (name, e) :: rest, h => by
    obtain ⟨hname, he, hrest⟩ := Entry.areDistinct_cons.mp h
    rw [visitsAll, List.map_append, List.nodup_append]
    refine ⟨?_, nodup_visitsAll owner directory hrest, ?_⟩
    · split
      · exact nodup_visits owner _ he
      · exact List.nodup_nil
    · rintro _ hv _ hw rfl
      obtain ⟨v, hv, hdirectory⟩ := List.mem_map.mp hv
      obtain ⟨w, hw, hdirectory'⟩ := List.mem_map.mp hw
      split at hv
      · obtain ⟨parts, hparts, -, -⟩ := holds_of_mem_visits hv
        obtain ⟨part, parts', inner, hmem, hparts', -, -⟩ := holds_of_mem_visitsAll hw
        rw [← hdirectory', hparts', hparts, Path.child_descend, descend_inj] at hdirectory
        exact hname _ hmem (List.cons.inj hdirectory).1.symm
      · cases hv

end

/-- What is found where all metadata can be read. -/
theorem eq_found_of_foundIn {vs : List Visit} {found : Found}
    (h : foundIn rules vs = .ok found) : found = Layout.found rules vs := by
  have hlegible : ∀ v ∈ vs, ¬ v.IsSpoilt := by
    intro v hv hspoilt
    obtain ⟨_, _, _, _, _, herror⟩ := foundIn_error rules ⟨v, hv, hspoilt⟩
    rw [h] at herror
    cases herror
  rw [foundIn_eq rules hlegible] at h
  exact (Except.ok.inj h).symm

/-- Projects have directories of their own. -/
theorem nodup_foundIn {root : Path} {tree : Option Entry} (h : ∀ e ∈ tree, e.isDistinct)
    {found : Found} (hfound : foundIn rules (visitsFrom rules root tree) = .ok found) :
    (found.projects.map Layout.directory).Nodup := by
  obtain rfl := eq_found_of_foundIn hfound
  have hvisits : ((visitsFrom rules root tree).map Visit.directory).Nodup := by
    cases tree with
    | none => exact List.nodup_nil
    | some e => exact nodup_visits none root (h e rfl)
  rw [Layout.found, List.map_map]
  exact hvisits.sublist (List.filter_sublist.map Visit.directory)

/-! ### Projects with one more file -/

/-- The second projects are the first ones, but one may have one more file, or there may be one
more of which it is the only file. -/
inductive Grown (f : SourceFile) : List Layout → List Layout → Prop
  | same (layouts : List Layout) : Grown f layouts layouts
  | file {l : Layout} {files : List SourceFile} (front back : List Layout)
      (h : OneMore f l.files files) :
      Grown f (front ++ l :: back) (front ++ { l with files } :: back)
  | project {l : Layout} (front back : List Layout) (h : l.files = [f]) :
      Grown f (front ++ back) (front ++ l :: back)

theorem Grown.append_right {f : SourceFile} {layouts layouts' : List Layout}
    (h : Grown f layouts layouts') (more : List Layout) :
    Grown f (layouts ++ more) (layouts' ++ more) := by
  cases h with
  | same => exact .same _
  | file front back h =>
    simp only [List.append_assoc, List.cons_append]
    exact .file front (back ++ more) h
  | project front back h =>
    simp only [List.append_assoc, List.cons_append]
    exact .project front (back ++ more) h

theorem le_trans (a b c : Layout) (hab : le a b) (hbc : le b c) : le a c :=
  decide_eq_true (String.le_trans (of_decide_eq_true hab) (of_decide_eq_true hbc))

theorem le_total (a b : Layout) : le a b || le b a := by
  simpa [le] using String.le_total a.directory.text b.directory.text

/-- In order of their directories. -/
theorem Grown.mergeSort {f : SourceFile} {layouts layouts' : List Layout}
    (h : Grown f layouts layouts') : Grown f (layouts.mergeSort le) (layouts'.mergeSort le) := by
  cases h with
  | same => exact .same _
  | @file l files front back h =>
    obtain ⟨front', back', -, hmiddle⟩ := mergeSort_middle le_trans le_total front back l
    rw [hmiddle l (fun _ => rfl) rfl, hmiddle { l with files } (fun _ => rfl) rfl]
    exact .file front' back' h
  | @project l front back h =>
    obtain ⟨front', back', hold, hmiddle⟩ := mergeSort_middle le_trans le_total front back l
    rw [hold, hmiddle l (fun _ => rfl) rfl]
    exact .project front' back' h

theorem filesOf_added {f : SourceFile} {owner : Option Path} {found found' : Found}
    (h : OneMore (owner, f) found.files found'.files) (owner' : Option Path) :
    if owner = owner' then OneMore f (filesOf owner' found) (filesOf owner' found')
    else filesOf owner' found' = filesOf owner' found := by
  split
  · exact h.filterMap (by simp [*])
  · exact h.filterMap_eq (by simp [*])

/-- The projects that are found, with their files. -/
def owned (found : Found) : List Layout :=
  found.projects.map fun l => { l with files := filesOf (some l.directory) found }

/-- The project of the root, if there are files for it. -/
def ofLoose (root : Path) (hasSourceDirectory : Bool) (files : List SourceFile) : List Layout :=
  if files.isEmpty then []
  else [{ name := .string root.name, directory := root, hasSourceDirectory, files }]

theorem assigned_eq_append (root : Path) (hasSourceDirectory : Bool) (found : Found) :
    assigned root hasSourceDirectory found =
      owned found ++ ofLoose root hasSourceDirectory (filesOf none found) := by
  by_cases hloose : (filesOf none found).isEmpty <;> simp [assigned, owned, ofLoose, hloose]

theorem grown_ofLoose {f : SourceFile} {files files' : List SourceFile} (root : Path)
    (hasSourceDirectory : Bool) (h : OneMore f files files') (layouts : List Layout) :
    Grown f (layouts ++ ofLoose root hasSourceDirectory files)
      (layouts ++ ofLoose root hasSourceDirectory files') := by
  have hne : files' ≠ [] := by
    obtain ⟨front, back, rfl, rfl⟩ := h
    simp
  rw [ofLoose, ofLoose, List.isEmpty_eq_false_iff.mpr hne]
  by_cases hnil : files = []
  · subst hnil
    obtain ⟨front, back, hnil, rfl⟩ := h
    obtain ⟨rfl, rfl⟩ := List.append_eq_nil_iff.mp hnil.symm
    exact .project layouts [] rfl
  · rw [List.isEmpty_eq_false_iff.mpr hnil]
    exact .file (l := { name := .string root.name, directory := root, hasSourceDirectory, files })
      layouts [] h

theorem grown_owned {f : SourceFile} {d : Path} {found found' : Found}
    (hnodup : (found.projects.map Layout.directory).Nodup)
    (hprojects : found'.projects = found.projects)
    (h : OneMore (some d, f) found.files found'.files) : Grown f (owned found) (owned found') := by
  have hother (l : Layout) (hl : l.directory ≠ d) :
      { l with files := filesOf (some l.directory) found' } =
        { l with files := filesOf (some l.directory) found } := by
    have hsame := filesOf_added h (some l.directory)
    rw [if_neg fun heq => hl (Option.some.inj heq).symm] at hsame
    rw [hsame]
  rw [owned, owned, hprojects]
  by_cases hd : ∃ l ∈ found.projects, l.directory = d
  · obtain ⟨l, hl, rfl⟩ := hd
    obtain ⟨front, back, hsplit⟩ := List.append_of_mem hl
    rw [hsplit] at hnodup ⊢
    rw [List.map_append, List.map_cons, List.nodup_middle, List.nodup_cons, ← List.map_append]
      at hnodup
    have hothers (l' : Layout) (hl' : l' ∈ front ++ back) : l'.directory ≠ l.directory :=
      fun heq => hnodup.1 (heq ▸ List.mem_map_of_mem hl')
    simp only [List.map_append, List.map_cons]
    rw [List.map_congr_left fun l' hl' => hother l' (hothers l' (List.mem_append_left _ hl')),
      List.map_congr_left fun l' hl' => hother l' (hothers l' (List.mem_append_right _ hl'))]
    have hone := filesOf_added h (some l.directory)
    rw [if_pos rfl] at hone
    exact .file (l := { l with files := filesOf (some l.directory) found }) _ _ hone
  · rw [List.map_congr_left fun l hl => hother l fun heq => hd ⟨l, hl, heq⟩]
    exact .same _

/-- One more file that is found is given to one project, or to none. -/
theorem grown_assign {f : SourceFile} {found found' : Found} (root : Path) (hasSources : Bool)
    (hnodup : (found.projects.map Layout.directory).Nodup) (h : found.Grown f found') :
    Grown f (assign root hasSources found) (assign root hasSources found') := by
  rw [assign_eq, assign_eq, assigned_eq_append, assigned_eq_append]
  refine Grown.mergeSort ?_
  rcases h.files with hsame | ⟨owner, hone⟩
  · have hfound : found' = found := by
      obtain ⟨projects, files⟩ := found'
      obtain rfl : projects = found.projects := h.projects
      obtain rfl : files = found.files := hsame
      rfl
    rw [hfound]
    exact .same _
  · have hnone := filesOf_added hone none
    cases owner with
    | none =>
      have howned : owned found' = owned found := by
        rw [owned, owned, h.projects]
        refine List.map_congr_left fun l _ => ?_
        have hsame := filesOf_added hone (some l.directory)
        rw [if_neg nofun] at hsame
        rw [hsame]
      rw [if_pos rfl] at hnone
      rw [howned]
      exact grown_ofLoose root hasSources hnone _
    | some d =>
      rw [if_neg nofun] at hnone
      rw [hnone]
      exact (grown_owned hnodup h.projects hone).append_right _

end Layout

end Concordance
