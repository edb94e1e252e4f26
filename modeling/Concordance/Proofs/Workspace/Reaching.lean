import Concordance.Proofs.Workspace.Files

/-!
# What a walk reaches

A walk is led by directories: it comes to one if it enters every directory on the way there. So
whether a source file is given to a project can be said of its path alone. It is if nothing on the
path is left out, neither the file nor a directory that it lies in.

## Main definitions

* `Entry.Holds`: what lies at the end of a way through a file tree
* `IgnoreRules.Admits`: nothing on a way is left out

## Main results

* `Layout.mem_visits_iff`: the directories that a walk comes to
* `Layout.exists_layout_iff`: the files that are given to a project
-/

namespace Concordance

namespace Path

@[simp] theorem descend_nil (p : Path) : p.descend [] = p := by simp [descend]

theorem child_descend (p : Path) (name : String) (rest : List String) :
    (p.child name).descend rest = p.descend (name :: rest) :=
  p.descend_descend [name] rest

theorem descend_child (p : Path) (parts : List String) (name : String) :
    (p.descend parts).child name = p.descend (parts ++ [name]) :=
  p.descend_descend parts [name]

end Path

/-- Something lies at the end of a way through a file tree. -/
def Entry.Holds : Entry → List String → Entry → Prop
  | e, [], f => e = f
  | e, part :: rest, f => ∃ inner, (part, inner) ∈ e.entries ∧ inner.Holds rest f

namespace Entry

theorem holds_append {e f : Entry} {parts rest : List String} :
    e.Holds (parts ++ rest) f ↔ ∃ d, e.Holds parts d ∧ d.Holds rest f := by
  induction parts generalizing e with
  | nil => exact ⟨fun h => ⟨e, rfl, h⟩, fun ⟨_, hd, h⟩ => hd ▸ h⟩
  | cons part parts ih =>
    constructor
    · rintro ⟨inner, hmem, h⟩
      obtain ⟨d, hd, h⟩ := ih.mp h
      exact ⟨d, ⟨inner, hmem, hd⟩, h⟩
    · rintro ⟨d, ⟨inner, hmem, hd⟩, h⟩
      exact ⟨inner, hmem, ih.mpr ⟨d, hd, h⟩⟩

theorem holds_concat {e f : Entry} {parts : List String} {name : String} :
    e.Holds (parts ++ [name]) f ↔
      ∃ entries, e.Holds parts (.directory entries) ∧ (name, f) ∈ entries := by
  rw [holds_append]
  constructor
  · rintro ⟨d, hd, inner, hmem, rfl⟩
    cases d with
    | file octets => cases hmem
    | directory entries => exact ⟨entries, hd, hmem⟩
  · rintro ⟨entries, hd, hmem⟩
    exact ⟨.directory entries, hd, f, hmem, rfl⟩

/-- What a directory lies in is a directory. -/
theorem Holds.isDirectory {e : Entry} {parts : List String} {entries : List (String × Entry)}
    (h : e.Holds parts (.directory entries)) : e.isDirectory := by
  cases parts with
  | nil =>
    obtain rfl : e = .directory entries := h
    rfl
  | cons part parts =>
    obtain ⟨inner, hmem, -⟩ := h
    cases e with
    | file octets => cases hmem
    | directory _ => rfl

end Entry

/-- Nothing on a way from a directory is left out. -/
def IgnoreRules.Admits (rules : IgnoreRules) (directory : Path) (parts : List String) : Prop :=
  ∀ front, front ≠ [] → front <+: parts → ¬ rules.ignores (directory.descend front)

namespace IgnoreRules

variable {rules : IgnoreRules} {directory : Path}

theorem admits_nil : rules.Admits directory [] := fun _ hne hfront =>
  absurd (List.prefix_nil.mp hfront) hne

theorem admits_cons {part : String} {rest : List String} :
    rules.Admits directory (part :: rest) ↔
      ¬ rules.ignores (directory.child part) ∧ rules.Admits (directory.child part) rest := by
  constructor
  · intro h
    refine ⟨h [part] (List.cons_ne_nil _ _) (List.prefix_append [part] rest), fun front _ hf => ?_⟩
    rw [Path.child_descend]
    exact h _ (List.cons_ne_nil _ _) ((List.prefix_cons_inj part).mpr hf)
  · rintro ⟨hpart, hrest⟩ front hne hf
    obtain ⟨front, rfl, hfront⟩ := (List.prefix_cons_iff.mp hf).resolve_left hne
    rw [← Path.child_descend]
    by_cases hnil : front = []
    · rwa [hnil, Path.descend_nil]
    · exact hrest front hnil hfront

theorem admits_concat {parts : List String} {name : String} :
    rules.Admits directory (parts ++ [name]) ↔
      rules.Admits directory parts ∧ ¬ rules.ignores (directory.descend (parts ++ [name])) := by
  constructor
  · intro h
    exact ⟨fun front hne hf => h front hne (hf.trans (List.prefix_append _ _)),
      h _ (List.concat_ne_nil _ _) List.prefix_rfl⟩
  · rintro ⟨hparts, hall⟩ front hne hf
    rcases List.prefix_concat_iff.mp hf with rfl | hf
    · exact hall
    · exact hparts front hne hf

end IgnoreRules

namespace Layout

variable {rules : IgnoreRules}

/-! ### Directories -/

theorem visitsAll_eq (owner : Option Path) (directory : Path) (entries : List (String × Entry)) :
    visitsAll rules owner directory entries = entries.flatMap fun x =>
      if x.2.isDirectory && !rules.ignores (directory.child x.1) then
        visits rules owner (directory.child x.1) x.2
      else [] := by
  induction entries with
  | nil => rfl
  | cons x rest ih => rw [visitsAll, List.flatMap_cons, ih]

mutual

/-- A walk comes to directories only, and it enters what leads to them. -/
theorem holds_of_mem_visits {owner : Option Path} {directory : Path} :
    ∀ {e : Entry} {v : Visit}, v ∈ visits rules owner directory e →
      ∃ parts, v.directory = directory.descend parts ∧ e.Holds parts (.directory v.entries) ∧
        rules.Admits directory parts
  | .file _, v, hv => by
    rw [visits] at hv
    cases hv
  | .directory entries, v, hv => by
    rw [visits] at hv
    rcases List.mem_cons.mp hv with rfl | hv
    · exact ⟨[], (Path.descend_nil _).symm, rfl, IgnoreRules.admits_nil⟩
    · obtain ⟨part, rest, inner, hmem, hdirectory, hholds, hadmits⟩ := holds_of_mem_visitsAll hv
      exact ⟨part :: rest, hdirectory, ⟨inner, hmem, hholds⟩, hadmits⟩

theorem holds_of_mem_visitsAll {owner : Option Path} {directory : Path} :
    ∀ {entries : List (String × Entry)} {v : Visit},
      v ∈ visitsAll rules owner directory entries →
        ∃ part rest inner, (part, inner) ∈ entries ∧
          v.directory = directory.descend (part :: rest) ∧
          inner.Holds rest (.directory v.entries) ∧ rules.Admits directory (part :: rest)
  | [], v, hv => by
    rw [visitsAll] at hv
    cases hv
  | (name, e) :: others, v, hv => by
    rw [visitsAll] at hv
    rcases List.mem_append.mp hv with hv | hv
    · split at hv
      · rename_i hentered
        obtain ⟨rest, hdirectory, hholds, hadmits⟩ := holds_of_mem_visits hv
        have hname : ¬ rules.ignores (directory.child name) := by
          simpa using (Bool.and_eq_true_iff.mp hentered).2
        refine ⟨name, rest, e, List.mem_cons_self, ?_, hholds,
          IgnoreRules.admits_cons.mpr ⟨hname, hadmits⟩⟩
        rw [hdirectory, Path.child_descend]
      · cases hv
    · obtain ⟨part, rest, inner, hmem, h⟩ := holds_of_mem_visitsAll hv
      exact ⟨part, rest, inner, List.mem_cons_of_mem _ hmem, h⟩

end

/-- A walk comes to a directory if nothing on the way is left out. -/
theorem exists_mem_visits (owner : Option Path) {directory : Path} {e : Entry}
    {parts : List String} {entries : List (String × Entry)}
    (hholds : e.Holds parts (.directory entries)) (hadmits : rules.Admits directory parts) :
    ∃ v ∈ visits rules owner directory e,
      v.directory = directory.descend parts ∧ v.entries = entries := by
  induction parts generalizing owner directory e with
  | nil =>
    obtain rfl : e = .directory entries := hholds
    rw [visits]
    exact ⟨_, List.mem_cons_self, (Path.descend_nil _).symm, rfl⟩
  | cons part rest ih =>
    obtain ⟨inner, hmem, hholds⟩ := hholds
    obtain ⟨hpart, hrest⟩ := IgnoreRules.admits_cons.mp hadmits
    cases e with
    | file octets => cases hmem
    | directory outer =>
      obtain ⟨v, hv, hdirectory, hentries⟩ :=
        ih (if isProject outer then some directory else owner) hholds hrest
      refine ⟨v, ?_, hdirectory.trans (Path.child_descend ..), hentries⟩
      rw [visits, visitsAll_eq]
      refine List.mem_cons_of_mem _ (List.mem_flatMap.mpr ⟨(part, inner), hmem, ?_⟩)
      rw [if_pos (by rw [hholds.isDirectory]; simpa using hpart)]
      exact hv

/-- The directories that a walk comes to are those that lie at the end of a way on which nothing is
left out. -/
theorem mem_visits_iff {owner : Option Path} {directory place : Path} {e : Entry}
    {entries : List (String × Entry)} :
    (∃ v ∈ visits rules owner directory e, v.directory = place ∧ v.entries = entries) ↔
      ∃ parts, place = directory.descend parts ∧ e.Holds parts (.directory entries) ∧
        rules.Admits directory parts := by
  constructor
  · rintro ⟨v, hv, rfl, rfl⟩
    exact holds_of_mem_visits hv
  · rintro ⟨parts, rfl, hholds, hadmits⟩
    exact exists_mem_visits owner hholds hadmits

/-! ### Files -/

theorem mem_sourcesIn_iff {directory : Path} {entries : List (String × Entry)} {f : SourceFile} :
    f ∈ sourcesIn rules directory entries ↔
      ∃ name, (name, .file f.octets) ∈ entries ∧ f.path = directory.child name ∧
        isSourceName name ∧ ¬ rules.ignores f.path := by
  rw [sourcesIn, List.mem_filterMap]
  constructor
  · rintro ⟨⟨name, e⟩, hmem, hsome⟩
    cases e with
    | directory _ => cases hsome
    | file octets =>
      obtain ⟨hname, hsome⟩ := Option.ite_none_right_eq_some.mp hsome
      cases hsome
      obtain ⟨hname, hignored⟩ := Bool.and_eq_true_iff.mp hname
      exact ⟨name, hmem, rfl, hname, by simpa using hignored⟩
  · rintro ⟨name, hmem, hpath, hname, hignored⟩
    obtain ⟨path, octets⟩ := f
    obtain rfl : path = directory.child name := hpath
    refine ⟨(name, .file octets), hmem, if_pos ?_⟩
    rw [hname]
    simpa using hignored

/-- The files that are given to a project are the source files at the end of a way on which nothing
is left out. -/
theorem exists_layout_iff {root : Path} {tree : Entry} {f : SourceFile} :
    (∃ l ∈ layouts rules root (some tree), f ∈ l.files) ↔
      ∃ parts name, f.path = root.descend (parts ++ [name]) ∧ isSourceName name ∧
        tree.Holds (parts ++ [name]) (.file f.octets) ∧ rules.Admits root (parts ++ [name]) := by
  constructor
  · rintro ⟨l, hl, hf⟩
    obtain ⟨v, hv, hsource, -⟩ := exists_visit_of_mem_files hl hf
    obtain ⟨parts, hdirectory, hholds, hadmits⟩ := holds_of_mem_visits hv
    obtain ⟨name, hmem, hpath, hname, hignored⟩ := mem_sourcesIn_iff.mp hsource
    rw [hdirectory, Path.descend_child] at hpath
    refine ⟨parts, name, hpath, hname, Entry.holds_concat.mpr ⟨_, hholds, hmem⟩,
      IgnoreRules.admits_concat.mpr ⟨hadmits, ?_⟩⟩
    rwa [← hpath]
  · rintro ⟨parts, name, hpath, hname, hholds, hadmits⟩
    obtain ⟨entries, hholds, hmem⟩ := Entry.holds_concat.mp hholds
    obtain ⟨hadmits, hignored⟩ := IgnoreRules.admits_concat.mp hadmits
    obtain ⟨v, hv, hdirectory, rfl⟩ := exists_mem_visits none hholds hadmits
    rw [← hpath] at hignored
    rw [← Path.descend_child, ← hdirectory] at hpath
    have hv : v ∈ visitsFrom rules root (some tree) := hv
    exact exists_layout_of_mem_visits hv
      (mem_sourcesIn_iff.mpr ⟨name, hmem, hpath, hname, hignored⟩)

end Layout

end Concordance
