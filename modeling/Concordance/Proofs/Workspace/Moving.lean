import Concordance.Proofs.Workspace.Growing

/-!
# Moving a directory

A directory with everything below it, under two absolute paths with the same last part. What a walk
finds in it is the same at either place, under the other paths: what is left out depends on the part
of a path below the directory and on the last part of it, and the order of projects on how their
paths go on below the directory. What the directories around it are called does not matter.

## Main definitions

* `Path.Twins`: paths that a directory can be moved between
* `Path.moved`: a path below the directory once that was moved
* `movePrefix`: a text with another start
* `Layout.moved`, `Layout.Found.moved`: projects and finds with their paths elsewhere

## Main results

* `Path.text_moved`, `Path.text_moved_le_iff`: how paths are written and compared
* `IgnoreRules.ignores_moved`: what is left out
* `Layout.foundIn_visitsFrom_moved`: what a walk finds
* `Layout.assign_moved`: the projects of a load
-/

namespace Concordance

/-! ### Texts -/

/-- A text with another start in place of the one given, if it has that. -/
def movePrefix (old new s : String) : String :=
  if old.toList.isPrefixOf s.toList then new ++ String.ofList (s.toList.drop old.toList.length)
  else s

theorem movePrefix_append (old new s : String) : movePrefix old new (old ++ s) = new ++ s := by
  have hprefix : old.toList.isPrefixOf (old ++ s).toList := by
    rw [List.isPrefixOf_iff_prefix, String.toList_append]
    exact List.prefix_append _ _
  rw [movePrefix, if_pos hprefix, String.toList_append, List.drop_left, String.ofList_toList]

theorem append_lt_append_iff (front a b : List Char) : front ++ a < front ++ b ↔ a < b := by
  induction front with
  | nil => rfl
  | cons c front ih =>
    rw [List.cons_append, List.cons_append, List.cons_lt_cons_iff]
    simp [ih]

/-- Texts with the same start compare as what follows it. -/
theorem append_le_append_iff (front a b : String) : front ++ a ≤ front ++ b ↔ a ≤ b := by
  show ¬ _ < _ ↔ ¬ _ < _
  rw [String.lt_iff, String.lt_iff, String.toList_append, String.toList_append,
    append_lt_append_iff]

namespace Path

/-! ### Paths below a directory -/

/-- Two directories that the same can lie in: their paths are absolute and have the same last
part. -/
structure Twins (a b : Path) : Prop where
  absolute : a.root ≠ ""
  root : b.root = a.root
  name : b.name = a.name
  parts : b.parts = [] ↔ a.parts = []

/-- A path lies below a directory, or is the path of the directory. -/
def Below (a p : Path) : Prop := ∃ parts, p = a.descend parts

/-- A path with the second directory in place of the first one that it lies below. -/
def moved (a b p : Path) : Path := b.descend (p.parts.drop a.parts.length)

variable {a b : Path}

theorem below_self (a : Path) : Below a a := ⟨[], a.descend_nil.symm⟩

@[simp] theorem moved_descend (parts : List String) :
    moved a b (a.descend parts) = b.descend parts := by
  simp [moved, descend]

@[simp] theorem moved_self : moved a b a = b := by
  have h := moved_descend (a := a) (b := b) []
  rwa [descend_nil, descend_nil] at h

theorem Below.descend {p : Path} (h : Below a p) (rest : List String) :
    Below a (p.descend rest) := by
  obtain ⟨parts, rfl⟩ := h
  exact ⟨parts ++ rest, a.descend_descend parts rest⟩

theorem Below.moved_descend {p : Path} (h : Below a p) (rest : List String) :
    moved a b (p.descend rest) = (moved a b p).descend rest := by
  obtain ⟨parts, rfl⟩ := h
  rw [descend_descend, Path.moved_descend, Path.moved_descend, descend_descend]

theorem Below.child {p : Path} (h : Below a p) (name : String) : Below a (p.child name) :=
  h.descend [name]

theorem Below.moved_child {p : Path} (h : Below a p) (name : String) :
    moved a b (p.child name) = (moved a b p).child name :=
  h.moved_descend [name]

theorem moved_inj {p q : Path} (hp : Below a p) (hq : Below a q) :
    moved a b p = moved a b q ↔ p = q := by
  obtain ⟨x, rfl⟩ := hp
  obtain ⟨y, rfl⟩ := hq
  rw [moved_descend, moved_descend, Layout.descend_inj, Layout.descend_inj]

/-- What is written behind a directory for what lies below it. -/
def textBelow (a : Path) (parts : List String) : String :=
  if parts = [] then "" else if a.parts = [] then "/".intercalate parts
  else "/" ++ "/".intercalate parts

theorem text_descend (h : a.root ≠ "") (parts : List String) :
    (a.descend parts).text = a.text ++ a.textBelow parts := by
  have htext (p : Path) (hp : p.root ≠ "") : p.text = p.root ++ "/".intercalate p.parts := by
    simp [text, hp]
  rw [htext a h, htext (a.descend parts) h, textBelow, descend]
  by_cases hparts : parts = []
  · simp [hparts]
  · by_cases htop : a.parts = []
    · simp [hparts, htop]
    · rw [if_neg hparts, if_neg htop, String.intercalate_append_of_ne_nil htop hparts]
      simp [String.append_assoc]

namespace Twins

variable (h : Twins a b)

include h

theorem textBelow_eq (parts : List String) : b.textBelow parts = a.textBelow parts := by
  simp [textBelow, h.parts]

/-- Where something lies after moving, is written with the one start in place of the other. -/
theorem text_moved {p : Path} (hp : Below a p) :
    (moved a b p).text = movePrefix a.text b.text p.text := by
  obtain ⟨parts, rfl⟩ := hp
  rw [moved_descend, text_descend h.absolute, movePrefix_append,
    text_descend (h.root ▸ h.absolute), h.textBelow_eq]

theorem text_moved_le_iff {p q : Path} (hp : Below a p) (hq : Below a q) :
    (moved a b p).text ≤ (moved a b q).text ↔ p.text ≤ q.text := by
  obtain ⟨x, rfl⟩ := hp
  obtain ⟨y, rfl⟩ := hq
  have hroot : b.root ≠ "" := h.root ▸ h.absolute
  rw [moved_descend, moved_descend, text_descend hroot, text_descend hroot,
    text_descend h.absolute, text_descend h.absolute, append_le_append_iff, append_le_append_iff,
    h.textBelow_eq, h.textBelow_eq]

theorem name_moved {p : Path} (hp : Below a p) : (moved a b p).name = p.name := by
  obtain ⟨parts, rfl⟩ := hp
  rw [moved_descend]
  rcases List.eq_nil_or_concat' parts with rfl | ⟨front, last, rfl⟩
  · rw [descend_nil, descend_nil, h.name]
  · rw [Path.name, Path.name, descend, descend, ← List.append_assoc, ← List.append_assoc,
      List.getLastD_concat, List.getLastD_concat]

end Twins

end Path

/-! ### What is left out -/

/-- The rules of a workspace with its root elsewhere. -/
def IgnoreRules.under (rules : IgnoreRules) (root : Path) : IgnoreRules := { rules with root }

/-- What is left out below a root depends on how paths go on from there. -/
theorem IgnoreRules.ignores_moved {a b p : Path} (h : a.Twins b) (hp : a.Below p)
    (rules : IgnoreRules) : (rules.under b).ignores (a.moved b p) = (rules.under a).ignores p := by
  have hname := h.name_moved hp
  obtain ⟨parts, rfl⟩ := hp
  have hseen (root : Path) : (rules.under root).seen (root.descend parts) = ⟨"", parts⟩ := by
    rw [seen, IgnoreRules.under, Path.relativeTo?_descend]
    rfl
  rw [Path.moved_descend] at hname ⊢
  simp only [ignores, hseen, hname]
  rfl

/-! ### What is found -/

/-- A source file that lies elsewhere. -/
def SourceFile.moved (a b : Path) (f : SourceFile) : SourceFile :=
  { f with path := a.moved b f.path }

/-- A project that lies elsewhere. -/
def Layout.moved (a b : Path) (l : Layout) : Layout :=
  { l with directory := a.moved b l.directory, files := l.files.map (SourceFile.moved a b) }

namespace Layout

/-- A directory that lies elsewhere, with the project that it belongs to. -/
def Visit.moved (a b : Path) (v : Visit) : Visit where
  owner := v.owner.map (a.moved b)
  directory := a.moved b v.directory
  entries := v.entries

/-- What is found if it lies elsewhere. -/
def Found.moved (a b : Path) (found : Found) : Found where
  projects := found.projects.map (Layout.moved a b)
  files := found.files.map fun x => (x.1.map (a.moved b), x.2.moved a b)

variable {a b : Path} {rules : IgnoreRules}

theorem sourcesIn_moved (h : a.Twins b) {directory : Path} (hbelow : a.Below directory)
    (entries : List (String × Entry)) :
    sourcesIn (rules.under b) (a.moved b directory) entries =
      (sourcesIn (rules.under a) directory entries).map (SourceFile.moved a b) := by
  rw [sourcesIn, sourcesIn, List.map_filterMap]
  refine List.filterMap_congr fun x _ => ?_
  obtain ⟨name, e⟩ := x
  cases e with
  | directory _ => rfl
  | file octets =>
    dsimp only
    rw [← hbelow.moved_child name, IgnoreRules.ignores_moved h (hbelow.child name)]
    split <;> rfl

mutual

/-- A walk comes to the same directories. -/
theorem visits_moved (h : a.Twins b) (owner : Option Path) {directory : Path}
    (hbelow : a.Below directory) :
    ∀ e : Entry, visits (rules.under b) (owner.map (a.moved b)) (a.moved b directory) e =
      (visits (rules.under a) owner directory e).map (Visit.moved a b)
  | .file _ => by rw [visits, visits, List.map_nil]
  | .directory entries => by
    have howner : (if isProject entries then some (a.moved b directory)
        else owner.map (a.moved b)) =
        (if isProject entries then some directory else owner).map (a.moved b) := by
      split <;> rfl
    rw [visits, visits, howner, List.map_cons, visitsAll_moved h _ hbelow entries]
    rfl

theorem visitsAll_moved (h : a.Twins b) (owner : Option Path) {directory : Path}
    (hbelow : a.Below directory) :
    ∀ entries : List (String × Entry),
      visitsAll (rules.under b) (owner.map (a.moved b)) (a.moved b directory) entries =
        (visitsAll (rules.under a) owner directory entries).map (Visit.moved a b)
  | [] => by rw [visitsAll, visitsAll, List.map_nil]
  | (name, e) :: rest => by
    rw [visitsAll, visitsAll, List.map_append, visitsAll_moved h owner hbelow rest,
      ← hbelow.moved_child name, IgnoreRules.ignores_moved h (hbelow.child name),
      visits_moved h owner (hbelow.child name) e]
    split <;> rfl

end

section

variable (h : a.Twins b)

include h

theorem ofDirectory_moved {directory : Path} (hbelow : a.Below directory)
    (entries : List (String × Entry)) :
    ofDirectory (a.moved b directory) entries =
      Layout.moved a b <$> ofDirectory directory entries := by
  rw [ofDirectory, ofDirectory, map_bind, h.name_moved hbelow]
  rfl

theorem project_moved {v : Visit} (hbelow : a.Below v.directory) :
    (v.moved a b).project = List.map (Layout.moved a b) <$> v.project := by
  rw [Visit.project, Visit.project]
  show (if isProject v.entries then (ofDirectory (a.moved b v.directory) v.entries).map _
    else _) = _
  rw [ofDirectory_moved h hbelow]
  split
  · cases ofDirectory v.directory v.entries <;> rfl
  · rfl

theorem files_moved {v : Visit} (hbelow : a.Below v.directory) :
    (v.moved a b).files (rules.under b) =
      (v.files (rules.under a)).map fun x => (x.1.map (a.moved b), x.2.moved a b) := by
  rw [Visit.files, Visit.files]
  show (sourcesIn (rules.under b) (a.moved b v.directory) v.entries).map _ = _
  rw [sourcesIn_moved h hbelow, List.map_map, List.map_map]
  rfl

/-- The same is found, or it fails for the same reason. -/
theorem foundIn_moved {vs : List Visit} (hbelow : ∀ v ∈ vs, a.Below v.directory) :
    foundIn (rules.under b) (vs.map (Visit.moved a b)) =
      Found.moved a b <$> foundIn (rules.under a) vs := by
  induction vs with
  | nil => rfl
  | cons v vs ih =>
    rw [List.map_cons, foundIn, foundIn, project_moved h (hbelow v List.mem_cons_self),
      ih fun v hv => hbelow v (List.mem_cons_of_mem _ hv),
      files_moved h (hbelow v List.mem_cons_self)]
    cases v.project with
    | error e => rfl
    | ok projects =>
      cases foundIn (rules.under a) vs with
      | error e => rfl
      | ok found =>
        refine congrArg Except.ok ?_
        simp [Found.append, Found.moved]

end

/-! ### Projects -/

/-- The directories of what is found lie below another one. -/
structure Found.Below (a : Path) (found : Found) : Prop where
  projects : ∀ l ∈ found.projects, a.Below l.directory
  owners : ∀ x ∈ found.files, ∀ d ∈ x.1, a.Below d

theorem filesOf_moved {found : Found} (hbelow : found.Below a) (owner : Option Path)
    (howner : ∀ d ∈ owner, a.Below d) :
    filesOf (owner.map (a.moved b)) (found.moved a b) =
      (filesOf owner found).map (SourceFile.moved a b) := by
  rw [filesOf, filesOf, Found.moved, List.filterMap_map, List.map_filterMap]
  refine List.filterMap_congr fun x hx => ?_
  have hsame : x.1.map (a.moved b) = owner.map (a.moved b) ↔ x.1 = owner := by
    have hd := hbelow.owners x hx
    generalize x.1 = d at hd
    cases d with
    | none => cases owner <;> simp
    | some d =>
      cases owner with
      | none => simp
      | some d' => simp [Path.moved_inj (hd d rfl) (howner d' rfl)]
  show (if x.1.map (a.moved b) = owner.map (a.moved b) then some (x.2.moved a b) else none) = _
  simp only [hsame]
  split <;> rfl

theorem owned_moved {found : Found} (hbelow : found.Below a) :
    owned (found.moved a b) = (owned found).map (Layout.moved a b) := by
  rw [owned, owned, List.map_map]
  show (found.projects.map (Layout.moved a b)).map _ = _
  rw [List.map_map]
  refine List.map_congr_left fun l hl => ?_
  have hfiles := filesOf_moved (b := b) hbelow (some l.directory) (by
    rintro d ⟨⟩
    exact hbelow.projects l hl)
  show ({ l.moved a b with files := filesOf (some (a.moved b l.directory)) (found.moved a b) } :
    Layout) = _
  rw [show some (a.moved b l.directory) = (some l.directory).map (a.moved b) from rfl, hfiles]
  rfl

theorem below_assigned {hasSources : Bool} {found : Found} (hbelow : found.Below a) :
    ∀ l ∈ assigned a hasSources found, a.Below l.directory := by
  intro l hl
  rw [assigned_eq_append, List.mem_append] at hl
  rcases hl with hl | hl
  · obtain ⟨l, hl', rfl⟩ := List.mem_map.mp hl
    exact hbelow.projects l hl'
  · rw [ofLoose] at hl
    split at hl
    · cases hl
    · obtain rfl := List.mem_singleton.mp hl
      exact Path.below_self a

/-- The same projects, in the same order. -/
theorem assign_moved (h : a.Twins b) (hasSources : Bool) {found : Found} (hbelow : found.Below a) :
    assign b hasSources (found.moved a b) =
      (assign a hasSources found).map (Layout.moved a b) := by
  have hloose := filesOf_moved (b := b) hbelow none (by simp)
  have hassigned : assigned b hasSources (found.moved a b) =
      (assigned a hasSources found).map (Layout.moved a b) := by
    rw [assigned_eq_append, assigned_eq_append, List.map_append, owned_moved hbelow]
    rw [show filesOf none (found.moved a b) = _ from hloose, ofLoose, ofLoose, List.isEmpty_map]
    split
    · rfl
    · simp [Layout.moved, h.name]
  rw [assign_eq, assign_eq, hassigned]
  refine (List.map_mergeSort fun l hl l' hl' => ?_).symm
  exact decide_eq_decide.mpr
    (h.text_moved_le_iff (below_assigned hbelow l hl) (below_assigned hbelow l' hl')).symm

/-- A walk comes to nothing outside the directory that it starts from. -/
theorem below_of_mem_visitsFrom {tree : Option Entry} {v : Visit}
    (hv : v ∈ visitsFrom rules a tree) : a.Below v.directory := by
  cases tree with
  | none => cases hv
  | some e =>
    obtain ⟨parts, hparts, -⟩ := holds_of_mem_visits hv
    exact ⟨parts, hparts⟩

theorem below_found {tree : Option Entry} : (found rules (visitsFrom rules a tree)).Below a := by
  refine ⟨fun l hl => ?_, fun x hx d hd => ?_⟩
  · obtain ⟨v, hv, rfl⟩ := List.mem_map.mp hl
    exact below_of_mem_visitsFrom (List.mem_filter.mp hv).1
  · obtain ⟨v, hv, hx⟩ := List.mem_flatMap.mp hx
    obtain ⟨f, -, rfl⟩ := List.mem_map.mp hx
    cases tree with
    | none => cases hv
    | some e =>
      rcases owner_of_mem_visits rules none a e v hv with hnone | ⟨w, hw, -, hsome⟩
      · rw [show v.owner = none from hnone] at hd
        cases hd
      · rw [show v.owner = some w.directory from hsome] at hd
        cases hd
        exact below_of_mem_visitsFrom (show w ∈ visitsFrom rules a (some e) from hw)

theorem visitsFrom_moved (h : a.Twins b) (tree : Option Entry) :
    visitsFrom (rules.under b) b tree =
      (visitsFrom (rules.under a) a tree).map (Visit.moved a b) := by
  cases tree with
  | none => rfl
  | some e =>
    have hvisits : visits (rules.under b) none (a.moved b a) e =
        (visits (rules.under a) none a e).map (Visit.moved a b) :=
      visits_moved h none (Path.below_self a) e
    rwa [Path.moved_self] at hvisits

/-- What a walk finds in a directory that was moved: the same under the other paths, or it fails for
the same reason. -/
theorem foundIn_visitsFrom_moved (h : a.Twins b) (rules : IgnoreRules) (tree : Option Entry) :
    foundIn (rules.under b) (visitsFrom (rules.under b) b tree) =
      Found.moved a b <$> foundIn (rules.under a) (visitsFrom (rules.under a) a tree) := by
  rw [visitsFrom_moved h, foundIn_moved h fun v hv => below_of_mem_visitsFrom hv]

end Layout

end Concordance
