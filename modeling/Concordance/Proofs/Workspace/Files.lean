import Concordance.Proofs.Workspace.Loading
import Concordance.Proofs.Workspace.Modules

/-!
# Files of projects

A walk gives each source file to a project, and the file lies in the directory of that project or
below it. The parts of its path are names from the file tree, in which there is no slash.

## Main definitions

* `Layout.IsKept`: what a walk keeps with every step
* `Entry.isNamed`: file trees with names that files can have

## Main results

* `Layout.IsKept.of_mem_visits`: what is kept is so wherever a walk comes to
* `Layout.owns_of_mem_layouts`, `Layout.slashless_of_mem_layouts`: where the files of a project lie
-/

namespace Concordance

namespace Layout

/-! ### Walks -/

/-- Every step of a walk keeps something of the project, the directory and the entry it is at. -/
def IsKept (I : Option Path → Path → Entry → Prop) : Prop :=
  ∀ owner directory entries, I owner directory (.directory entries) → ∀ x ∈ entries,
    I (if isProject entries then some directory else owner) (directory.child x.1) x.2

mutual

/-- What every step of a walk keeps is so wherever it comes to. -/
theorem IsKept.of_mem_visits {I : Option Path → Path → Entry → Prop} (hI : IsKept I)
    {rules : IgnoreRules} {owner : Option Path} {directory : Path} :
    ∀ {e : Entry}, I owner directory e → ∀ v ∈ visits rules owner directory e,
      ∃ outer, I outer v.directory (.directory v.entries) ∧
        v.owner = if isProject v.entries then some v.directory else outer
  | .file _, _, v, hv => by
    rw [visits] at hv
    cases hv
  | .directory entries, h, v, hv => by
    rw [visits] at hv
    rcases List.mem_cons.mp hv with rfl | hv
    · exact ⟨owner, h, rfl⟩
    · exact hI.of_mem_visitsAll (hI owner directory entries h) v hv

theorem IsKept.of_mem_visitsAll {I : Option Path → Path → Entry → Prop} (hI : IsKept I)
    {rules : IgnoreRules} {owner : Option Path} {directory : Path} :
    ∀ {entries : List (String × Entry)}, (∀ x ∈ entries, I owner (directory.child x.1) x.2) →
      ∀ v ∈ visitsAll rules owner directory entries,
        ∃ outer, I outer v.directory (.directory v.entries) ∧
          v.owner = if isProject v.entries then some v.directory else outer
  | [], _, v, hv => by
    rw [visitsAll] at hv
    cases hv
  | (name, e) :: rest, h, v, hv => by
    rw [visitsAll] at hv
    rcases List.mem_append.mp hv with hv | hv
    · split at hv
      · exact hI.of_mem_visits (h _ List.mem_cons_self) v hv
      · cases hv
    · exact hI.of_mem_visitsAll (fun x hx => h x (List.mem_cons_of_mem _ hx)) v hv

end

end Layout

/-! ### Names without slashes -/

namespace Entry

mutual

/-- Whether the names in a file tree are names that files can have: there is no slash in them. -/
def isNamed : Entry → Bool
  | .file _ => true
  | .directory entries => areNamed entries

/-- Whether the names in a directory are names that files can have. -/
def areNamed : List (String × Entry) → Bool
  | [] => true
  | (name, e) :: rest => !name.toList.contains '/' && e.isNamed && areNamed rest

end

theorem isNamed_of_mem {entries : List (String × Entry)} (h : (directory entries).isNamed)
    {x : String × Entry} (hx : x ∈ entries) : '/' ∉ x.1.toList ∧ x.2.isNamed := by
  rw [isNamed] at h
  induction entries with
  | nil => cases hx
  | cons y rest ih =>
    rw [areNamed] at h
    simp only [Bool.and_eq_true, Bool.not_eq_true', List.contains_eq_mem,
      decide_eq_false_iff_not] at h
    rcases List.mem_cons.mp hx with rfl | hx
    · exact h.1
    · exact ih h.2 hx

/-- What the entries of a directory have of it, what a path leads to has of the root. -/
theorem follow?_keeps {P : Entry → Prop}
    (hP : ∀ entries, P (directory entries) → ∀ x ∈ entries, P x.2) {root e : Entry} (h : P root)
    {p : Path} (he : root.follow? p = some e) : P e := by
  have hchild {here e : Entry} {name : String} (h : P here) (he : here.child? name = some e) :
      P e := by
    cases here with
    | file octets => cases he
    | directory entries => exact hP entries h _ (Table.mem_of_find? he)
  have hway (way : List Entry) (parts : List String) (h : ∀ here ∈ way, P here)
      (he : followFrom way parts = some e) : P e := by
    induction parts generalizing way with
    | nil => exact h e (List.mem_of_mem_head? (by rwa [followFrom.eq_def] at he))
    | cons part rest ih =>
      rcases way with _ | ⟨here, outer⟩
      · cases he
      rw [followFrom] at he
      split at he
      · cases he
      · split at he
        · refine ih _ (fun x hx => h x ?_) he
          split at hx
          · exact hx
          · exact List.mem_cons_of_mem _ hx
        · split at he
          · rename_i inner hinner
            refine ih _ (fun x hx => ?_) he
            rcases List.mem_cons.mp hx with rfl | hx
            · exact hchild (h here List.mem_cons_self) hinner
            · exact h x hx
          · cases he
  exact hway [root] p.parts (by simpa using h) he

theorem isNamed_follow? {root e : Entry} (h : root.isNamed) {p : Path}
    (he : root.follow? p = some e) : e.isNamed :=
  follow?_keeps (P := fun e => e.isNamed) (fun _ h _ hx => (isNamed_of_mem h hx).2) h he

end Entry

namespace Path

theorem slashless_splitFrom {acc cs : List Char} (h : '/' ∉ acc) :
    ∀ part ∈ splitFrom acc cs, '/' ∉ part.toList := by
  induction cs generalizing acc with
  | nil => simpa [splitFrom] using h
  | cons c cs ih =>
    rw [splitFrom]
    split
    · intro part hpart
      rcases List.mem_cons.mp hpart with rfl | hpart
      · simpa using h
      · exact ih List.not_mem_nil part hpart
    · rename_i hc
      exact ih (by simp [h, Ne.symm hc])

theorem slashless_ofText (s : String) : (ofText s).Slashless := fun part hpart =>
  slashless_splitFrom List.not_mem_nil part (List.mem_filter.mp hpart).1

theorem Slashless.of_subset {p q : Path} (h : p.Slashless) (hsub : q.parts ⊆ p.parts) :
    q.Slashless := fun part hpart => h part (hsub hpart)

theorem foldl_takeBack_subset (done parts : List String) :
    parts.foldl takeBack done ⊆ done ++ parts := by
  induction parts generalizing done with
  | nil => simp
  | cons part rest ih =>
    refine List.Subset.trans (ih (takeBack done part)) ?_
    rw [takeBack]
    split
    · have hdone : done.dropLast ⊆ done ++ part :: rest :=
        List.Subset.trans (List.dropLast_subset done) (List.subset_append_left done _)
      have hrest : rest ⊆ done ++ part :: rest :=
        List.Subset.trans (List.subset_cons_self part rest) (List.subset_append_right done _)
      exact List.append_subset.mpr ⟨hdone, hrest⟩
    · simp

theorem Slashless.normalize {p : Path} (h : p.Slashless) : p.normalize.Slashless :=
  h.of_subset (foldl_takeBack_subset [] p.parts)

theorem Slashless.child {p : Path} (h : p.Slashless) {name : String} (hname : '/' ∉ name.toList) :
    (p.child name).Slashless := by
  intro part hpart
  rcases List.mem_append.mp hpart with hpart | hpart
  · exact h part hpart
  · rwa [List.mem_singleton.mp hpart]

end Path

/-- The directory that a load starts from is a path without two dots, of parts of the one given. -/
theorem exists_normalize_of_workspaceDirectory {tree : Entry} {root : String} {directory : Path}
    (h : workspaceDirectory tree root = .ok directory) :
    ∃ p : Path, directory = p.normalize ∧ p.parts ⊆ (Path.ofText root).parts := by
  unfold workspaceDirectory at h
  dsimp only at h
  split at h
  · cases h
  · cases h
  · cases h
    refine ⟨_, rfl, ?_⟩
    split
    · exact List.dropLast_subset _
    · exact List.Subset.refl _

/-- There is no slash in the parts of the directory that a load starts from. -/
theorem slashless_workspaceDirectory {tree : Entry} {root : String} {directory : Path}
    (h : workspaceDirectory tree root = .ok directory) : directory.Slashless := by
  obtain ⟨p, rfl, hsub⟩ := exists_normalize_of_workspaceDirectory h
  exact ((Path.slashless_ofText root).of_subset hsub).normalize

namespace Layout

variable {l : Layout}

/-! ### The files of projects -/

theorem mem_sourcesIn {rules : IgnoreRules} {directory : Path} {entries : List (String × Entry)}
    {f : SourceFile} (h : f ∈ sourcesIn rules directory entries) :
    ∃ x ∈ entries, f.path = directory.child x.1 ∧ isSourceName x.1 := by
  obtain ⟨⟨name, e⟩, hmem, hsome⟩ := List.mem_filterMap.mp h
  cases e with
  | directory _ => cases hsome
  | file octets =>
    dsimp only at hsome
    split at hsome
    · rename_i hname
      cases hsome
      exact ⟨_, hmem, rfl, (Bool.and_eq_true_iff.mp hname).1⟩
    · cases hsome

/-- The files of a project come from the directories that belong to it. -/
theorem exists_visit_of_mem_files {rules : IgnoreRules} {root : Path} {tree : Option Entry}
    (hl : l ∈ layouts rules root tree) {f : SourceFile} (hf : f ∈ l.files) :
    ∃ v ∈ visitsFrom rules root tree, f ∈ sourcesIn rules v.directory v.entries ∧
      (v.owner = none ∧ l.directory = root ∨ v.owner = some l.directory) := by
  have hvisit {owner : Option Path}
      (h : f ∈ filesOf owner (found rules (visitsFrom rules root tree))) :
      ∃ v ∈ visitsFrom rules root tree, f ∈ sourcesIn rules v.directory v.entries ∧
        v.owner = owner := by
    obtain ⟨v, hv, hf⟩ := List.mem_flatMap.mp (mem_filesOf.mp h)
    obtain ⟨g, hg, heq⟩ := List.mem_map.mp hf
    cases heq
    exact ⟨v, hv, hg, rfl⟩
  rw [layouts, assign, List.mem_mergeSort] at hl
  have howned (h : l ∈ (found rules (visitsFrom rules root tree)).projects.map fun l : Layout =>
      { l with files := filesOf (some l.directory) (found rules (visitsFrom rules root tree)) }) :
      ∃ v ∈ visitsFrom rules root tree, f ∈ sourcesIn rules v.directory v.entries ∧
        (v.owner = none ∧ l.directory = root ∨ v.owner = some l.directory) := by
    obtain ⟨l', -, rfl⟩ := List.mem_map.mp h
    obtain ⟨v, hv, hsource, howner⟩ := hvisit hf
    exact ⟨v, hv, hsource, .inr howner⟩
  split at hl
  · exact howned hl
  · rcases List.mem_append.mp hl with hl | hl
    · exact howned hl
    · obtain rfl := List.mem_singleton.mp hl
      obtain ⟨v, hv, hsource, howner⟩ := hvisit hf
      exact ⟨v, hv, hsource, .inl ⟨howner, rfl⟩⟩

/-- The files of a project lie in its directory. -/
theorem owns_of_mem_layouts {rules : IgnoreRules} {root : Path} {tree : Option Entry}
    (hl : l ∈ layouts rules root tree) {f : SourceFile} (hf : f ∈ l.files) : l.Owns f.path := by
  obtain ⟨v, hv, hsource, howner⟩ := exists_visit_of_mem_files hl hf
  obtain ⟨⟨name, e⟩, hmem, hpath, hname⟩ := mem_sourcesIn hsource
  have hkept : IsKept fun owner directory _ =>
      (∃ parts, directory = root.descend parts) ∧
        ∀ o ∈ owner, ∃ parts, directory = o.descend parts := by
    rintro owner directory entries ⟨⟨parts, hbelow⟩, howner⟩ x hx
    refine ⟨⟨parts ++ [x.1], ?_⟩, fun o ho => ?_⟩
    · rw [← Path.descend_descend, ← hbelow]
      rfl
    · split at ho
      · cases ho
        exact ⟨[x.1], rfl⟩
      · obtain ⟨parts, hparts⟩ := howner o ho
        exact ⟨parts ++ [x.1], by rw [← Path.descend_descend, ← hparts]; rfl⟩
  cases tree with
  | none => cases hv
  | some e' =>
    have hstart : root = root.descend [] := by simp [Path.descend]
    obtain ⟨outer, ⟨hbelow, houter⟩, hown⟩ := hkept.of_mem_visits (e := e')
      ⟨⟨[], hstart⟩, fun _ h => by cases h⟩ v hv
    have hin : ∃ parts, v.directory = l.directory.descend parts := by
      rcases howner with ⟨-, hdirectory⟩ | howner
      · exact hdirectory ▸ hbelow
      · rw [hown] at howner
        split at howner
        · exact ⟨[], by simp [Path.descend, Option.some.inj howner]⟩
        · exact houter _ howner
    obtain ⟨parts, hparts⟩ := hin
    exact ⟨parts, name, by rw [hpath, ← Path.descend_descend, ← hparts]; rfl, hname⟩

/-- There is no slash in the parts of the paths of files if there is none in the names of the
tree. -/
theorem slashless_of_mem_layouts {rules : IgnoreRules} {root : Path} {tree : Option Entry}
    (hroot : root.Slashless) (htree : ∀ e ∈ tree, e.isNamed) (hl : l ∈ layouts rules root tree)
    {f : SourceFile} (hf : f ∈ l.files) : f.path.Slashless := by
  obtain ⟨v, hv, hsource, -⟩ := exists_visit_of_mem_files hl hf
  obtain ⟨⟨name, e⟩, hmem, hpath, -⟩ := mem_sourcesIn hsource
  have hkept : IsKept fun _ directory e => directory.Slashless ∧ e.isNamed := by
    rintro owner directory entries ⟨hslash, hnamed⟩ x hx
    obtain ⟨hname, hinner⟩ := Entry.isNamed_of_mem hnamed hx
    exact ⟨hslash.child hname, hinner⟩
  cases tree with
  | none => cases hv
  | some e' =>
    obtain ⟨-, ⟨hslash, hnamed⟩, -⟩ := hkept.of_mem_visits (e := e') ⟨hroot, htree e' rfl⟩ v hv
    exact hpath ▸ hslash.child (Entry.isNamed_of_mem hnamed hmem).1

end Layout

end Concordance
