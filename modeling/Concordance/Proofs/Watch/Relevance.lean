import Concordance.Proofs.Workspace.Reaching
import Concordance.Watch.Watcher

/-!
# Changes that count

A load and a watcher go by the same rules, but not in the same way. A load asks them of every
directory that it would enter and of the files in those that it does; a watcher asks them of the
path of a file alone. A source below a directory that is left out by a pattern for that directory
is not loaded for this reason, but a change of it counts. It is the other way round for a file of
which the name is nothing but the suffix of sources: it is loaded, but has no suffix for a watcher.

## Main definitions

* `IsGiven`: a file is given to a project

## Main results

* `isRelevant_iff_isGiven_iff`: the sources on which a watcher and a load agree
* `not_always_agrees`: a directory that is left out by a pattern
-/

namespace Concordance.Watch

open Layout Metered

/-- A file is given to one of some projects. -/
def IsGiven (projects : List Layout) (p : Path) : Prop :=
  ∃ l ∈ projects, ∃ f ∈ l.files, f.path = p

/-! ### What a watcher goes by -/

/-- A source has a suffix unless there is nothing else in its name. -/
theorem suffix_eq_iff {name : String} (hname : isSourceName name) :
    (Path.splitSuffix name).2 = sourceSuffix ↔ name ≠ sourceSuffix := by
  obtain ⟨front, hfront, hsplit⟩ := Path.splitSuffix_of_isSourceName hname
  have hempty : front = [] ↔ name = sourceSuffix := by
    rw [← String.toList_inj, hfront]
    exact List.append_left_eq_self.symm
  rw [hsplit, ne_eq, ← hempty]
  cases front with
  | nil => exact iff_of_false (show ¬ "" = sourceSuffix by decide) (not_not.mpr rfl)
  | cons c front => exact iff_of_true rfl (List.cons_ne_nil c front)

/-- A source is no metadata file. -/
theorem notMem_fileNames {name : String} (hname : isSourceName name) :
    name ∉ Metadata.fileNames := by
  intro hmem
  have hnone : ∀ n ∈ Metadata.fileNames, ¬ isSourceName n := by decide +kernel
  exact hnone name hmem hname

variable {rules : IgnoreRules} {root : Path} {parts : List String} {name : String}

theorem isRelevant_descend :
    isRelevant rules (root.descend (parts ++ [name])) ↔
      ((Path.splitSuffix name).2 = sourceSuffix ∨ name ∈ Metadata.fileNames) ∧
        ¬ rules.ignores (root.descend (parts ++ [name])) := by
  have hname : (root.descend (parts ++ [name])).name = name := by
    simp [Path.name, Path.descend]
  simp [isRelevant, Path.suffix, hname]

/-- Changes of a source count unless it is left out or has no suffix. -/
theorem isRelevant_iff (hname : isSourceName name) :
    isRelevant rules (root.descend (parts ++ [name])) ↔
      name ≠ sourceSuffix ∧ ¬ rules.ignores (root.descend (parts ++ [name])) := by
  rw [isRelevant_descend, suffix_eq_iff hname, or_iff_left (notMem_fileNames hname)]

/-! ### What a load goes by -/

variable {tree : Entry} {projects : List Layout}

/-- Projects are found if their metadata can be read. -/
theorem ends_layouts (h : ∀ v ∈ visitsFrom rules root (some tree), ¬ v.IsSpoilt) :
    (ofTree rules root (some tree) : Metered Unit (List Layout)).Ends
      (.ok (layouts rules root (some tree))) := by
  have hends := ofTree_ends (σ := Unit) rules root (some tree)
  rw [foundIn_eq rules h] at hends
  exact hends

/-- The projects that are found, if they are. -/
theorem eq_layouts_of_ends
    (h : (ofTree rules root (some tree) : Metered Unit (List Layout)).Ends (.ok projects)) :
    projects = layouts rules root (some tree) := by
  by_cases hspoilt : ∃ v ∈ visitsFrom rules root (some tree), v.IsSpoilt
  · have hends := ofTree_ends (σ := Unit) rules root (some tree)
    obtain ⟨_, _, _, _, _, hfound⟩ := foundIn_error rules hspoilt
    rw [hfound] at hends
    cases h.unique hends
  · exact Except.ok.inj (h.unique (ends_layouts fun v hv hs => hspoilt ⟨v, hv, hs⟩))

/-- A source is given to a project exactly if nothing on its path is left out. -/
theorem isGiven_iff {octets : List UInt8}
    (h : (ofTree rules root (some tree) : Metered Unit (List Layout)).Ends (.ok projects))
    (hholds : tree.Holds (parts ++ [name]) (.file octets)) (hname : isSourceName name) :
    IsGiven projects (root.descend (parts ++ [name])) ↔
      rules.Admits root parts ∧ ¬ rules.ignores (root.descend (parts ++ [name])) := by
  rw [eq_layouts_of_ends h, ← IgnoreRules.admits_concat]
  constructor
  · rintro ⟨l, hl, f, hf, hpath⟩
    obtain ⟨parts', name', hpath', -, -, hadmits⟩ := exists_layout_iff.mp ⟨l, hl, hf⟩
    have hparts := List.append_cancel_left (congrArg Path.parts (hpath.symm.trans hpath'))
    rwa [hparts]
  · intro hadmits
    let f : SourceFile := ⟨root.descend (parts ++ [name]), octets⟩
    obtain ⟨l, hl, hf⟩ : ∃ l ∈ layouts rules root (some tree), f ∈ l.files :=
      exists_layout_iff.mpr ⟨parts, name, rfl, hname, hholds, hadmits⟩
    exact ⟨l, hl, f, hf, rfl⟩

/-! ### Where they agree -/

/-- **The sources on which a watcher and a load agree.** In any file tree and under any rules, a
change of a source counts unless the path of the source is left out or there is nothing in front of
its suffix, and the source is given to a project unless something on its path is left out. So they
agree on a source exactly if it is left out itself, or if both or neither of these hold: there is
something in front of its suffix, and no directory that it lies in is left out. -/
theorem isRelevant_iff_isGiven_iff {octets : List UInt8}
    (hends : (ofTree rules root (some tree) : Metered Unit (List Layout)).Ends (.ok projects))
    (hholds : tree.Holds (parts ++ [name]) (.file octets)) (hname : isSourceName name) :
    let p := root.descend (parts ++ [name])
    (isRelevant rules p ↔ name ≠ sourceSuffix ∧ ¬ rules.ignores p) ∧
      (IsGiven projects p ↔ rules.Admits root parts ∧ ¬ rules.ignores p) ∧
      ((isRelevant rules p ↔ IsGiven projects p) ↔
        rules.ignores p ∨ (name ≠ sourceSuffix ↔ rules.Admits root parts)) := by
  intro p
  have hrelevant : isRelevant rules p ↔ name ≠ sourceSuffix ∧ ¬ rules.ignores p :=
    isRelevant_iff hname
  have hgiven : IsGiven projects p ↔ rules.Admits root parts ∧ ¬ rules.ignores p :=
    isGiven_iff hends hholds hname
  refine ⟨hrelevant, hgiven, ?_⟩
  rw [hrelevant, hgiven, and_congr_left_iff, or_iff_not_imp_left]

/-- Two directories, of which one is left out by a pattern. -/
def workshop : Entry :=
  .directory
    [("generated", .directory [("a.py", .file [])]), ("shop", .directory [("b.py", .file [])])]

/-- The rules with this pattern. -/
def workshopRules : IgnoreRules := { root := ⟨"/", ["ws"]⟩, patterns := ["generated"] }

/-- In the other one, a source is loaded and its changes count. -/
theorem isRelevant_workshop :
    ∃ projects, (ofTree workshopRules ⟨"/", ["ws"]⟩ (some workshop) : Metered Unit _).Ends
        (.ok projects) ∧
      workshop.Holds ["shop", "b.py"] (.file []) ∧ isSourceName "b.py" ∧
      isRelevant workshopRules ⟨"/", ["ws", "shop", "b.py"]⟩ ∧
      IsGiven projects ⟨"/", ["ws", "shop", "b.py"]⟩ := by
  have hlegible : ∀ v ∈ visitsFrom workshopRules ⟨"/", ["ws"]⟩ (some workshop), ¬ v.IsSpoilt := by
    decide +kernel
  have hends := ends_layouts hlegible
  have hholds : workshop.Holds (["shop"] ++ ["b.py"]) (.file []) := by
    simp [workshop, Entry.Holds, Entry.entries]
  have hname : isSourceName "b.py" := by decide +kernel
  have hrelevant : isRelevant workshopRules ⟨"/", ["ws", "shop", "b.py"]⟩ := by decide +kernel
  obtain ⟨-, -, hagree⟩ := isRelevant_iff_isGiven_iff hends hholds hname
  have hshop : workshopRules.Admits ⟨"/", ["ws"]⟩ ["shop"] :=
    IgnoreRules.admits_cons.mpr ⟨by decide +kernel, IgnoreRules.admits_nil⟩
  exact ⟨_, hends, hholds, hname, hrelevant,
    (hagree.mpr (.inr (iff_of_true (by decide) hshop))).mp hrelevant⟩

/-- Changes of a source that is not loaded may count. -/
theorem not_always_agrees :
    ¬ ∀ (rules : IgnoreRules) (root : Path) (tree : Entry) (projects : List Layout)
        (parts : List String) (name : String) (octets : List UInt8),
      (ofTree rules root (some tree) : Metered Unit _).Ends (.ok projects) →
        tree.Holds (parts ++ [name]) (.file octets) → isSourceName name →
          (isRelevant rules (root.descend (parts ++ [name])) ↔
            IsGiven projects (root.descend (parts ++ [name]))) := by
  intro hall
  have hlegible : ∀ v ∈ visitsFrom workshopRules ⟨"/", ["ws"]⟩ (some workshop), ¬ v.IsSpoilt := by
    decide +kernel
  have hholds : workshop.Holds ["generated", "a.py"] (.file []) := by
    simp [workshop, Entry.Holds, Entry.entries]
  have hname : isSourceName "a.py" := by decide +kernel
  have hends := ends_layouts hlegible
  have hagree := hall _ _ _ _ ["generated"] "a.py" [] hends hholds hname
  have hgiven := hagree.mp (by decide +kernel)
  obtain ⟨hadmits, -⟩ := (isGiven_iff hends hholds hname).mp hgiven
  exact (IgnoreRules.admits_cons.mp hadmits).1 (by decide +kernel)

end Concordance.Watch
