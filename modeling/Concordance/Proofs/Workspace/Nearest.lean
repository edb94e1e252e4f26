import Concordance.Proofs.Workspace.Growing

/-!
# The nearest project

A walk hands the project that it is in down to the directories that it enters, and a directory with
a metadata file takes its place. So whatever a walk comes to belongs to the deepest project on the
way there. That can be said of the file tree alone: which directories of it hold a metadata file,
whether a walk looks at that file or leaves it out, and in which order it comes by them.

## Main definitions

* `Entry.IsProjectAt`: a way leads to the directory of a project
* `Entry.Deepest`: the deepest project among some directories, if one of them is a project

## Main results

* `Entry.holds_unique`: what lies at the end of a way
* `Layout.deepest_of_mem_visits`: the project that a directory belongs to
-/

namespace Concordance

namespace Entry

variable {tree : Entry}

/-! ### The end of a way -/

theorem nodup_names {entries : List (String × Entry)} (h : areDistinct entries) :
    (entries.map Prod.fst).Nodup := by
  induction entries with
  | nil => exact List.nodup_nil
  | cons x rest ih =>
    obtain ⟨hfirst, -, hrest⟩ := areDistinct_cons.mp h
    refine List.nodup_cons.mpr ⟨fun hmem => ?_, ih hrest⟩
    obtain ⟨y, hy, hname⟩ := List.mem_map.mp hmem
    exact hfirst y hy hname

/-- Where no two entries of a directory have the same name, one entry lies at the end of a way. -/
theorem holds_unique (h : tree.isDistinct) {way : List String} {e e' : Entry}
    (he : tree.Holds way e) (he' : tree.Holds way e') : e = e' := by
  induction way generalizing tree with
  | nil => exact Eq.trans (Eq.symm he) he'
  | cons part rest ih =>
    obtain ⟨inner, hmem, he⟩ := he
    obtain ⟨inner', hmem', he'⟩ := he'
    cases tree with
    | file octets => cases hmem
    | directory entries =>
      rw [isDistinct] at h
      cases List.inj_on_of_nodup_map (nodup_names h) hmem hmem' rfl
      exact ih (isDistinct_of_mem h hmem) he he'

theorem isDistinct_of_holds (h : tree.isDistinct) {way : List String} {e : Entry}
    (he : tree.Holds way e) : e.isDistinct := by
  induction way generalizing tree with
  | nil =>
    obtain rfl : tree = e := he
    exact h
  | cons part rest ih =>
    obtain ⟨inner, hmem, he⟩ := he
    cases tree with
    | file octets => cases hmem
    | directory entries =>
      rw [isDistinct] at h
      exact ih (isDistinct_of_mem h hmem) he

/-! ### Projects on a way -/

/-- A way leads to the directory of a project: there is a metadata file in it. -/
def IsProjectAt (tree : Entry) (way : List String) : Prop :=
  ∃ name ∈ Metadata.fileNames, ∃ octets, tree.Holds (way ++ [name]) (.file octets)

theorem isProjectAt_iff (h : tree.isDistinct) {way : List String}
    {entries : List (String × Entry)} (hholds : tree.Holds way (.directory entries)) :
    tree.IsProjectAt way ↔ Layout.isProject entries := by
  rw [Layout.isProject, List.any_eq_true]
  constructor
  · rintro ⟨name, hname, octets, hfile⟩
    obtain ⟨entries', hholds', hmem⟩ := holds_concat.mp hfile
    cases holds_unique h hholds hholds'
    exact ⟨_, hmem, by simpa [isDirectory] using hname⟩
  · rintro ⟨⟨name, e⟩, hmem, hproject⟩
    simp only [Bool.and_eq_true, List.contains_eq_mem, decide_eq_true_eq] at hproject
    obtain ⟨hname, hkind⟩ := hproject
    cases e with
    | directory _ => cases hkind
    | file octets => exact ⟨name, hname, octets, holds_concat.mpr ⟨entries, hholds, hmem⟩⟩

/-- The deepest project among the directories that some ways lead to, if one of them is a
project. -/
inductive Deepest (tree : Entry) (among : List String → Prop) : Option (List String) → Prop
  | none (h : ∀ way, among way → ¬ tree.IsProjectAt way) : Deepest tree among none
  | some {place : List String} (hamong : among place) (hproject : tree.IsProjectAt place)
      (hdeepest : ∀ way, among way → tree.IsProjectAt way → way.length ≤ place.length) :
      Deepest tree among (some place)

namespace Deepest

variable {way place : List String} {nearest : Option (List String)}

theorem congr {tree' : Entry} {among among' : List String → Prop}
    (h : tree.Deepest among nearest) (hamong : ∀ way, among way ↔ among' way)
    (hproject : ∀ way, tree.IsProjectAt way ↔ tree'.IsProjectAt way) :
    tree'.Deepest among' nearest := by
  obtain rfl : among = among' := funext fun way => propext (hamong way)
  cases h with
  | none h => exact .none fun way hway => (hproject way).not.mp (h way hway)
  | some hin hat hdeepest =>
    exact .some hin ((hproject _).mp hat) fun way hway hat' =>
      hdeepest way hway ((hproject way).mpr hat')

/-- Among nothing there is no project. -/
theorem above_nil : tree.Deepest (fun front => front <+: [] ∧ front ≠ []) Option.none :=
  .none fun _ h => absurd (List.prefix_nil.mp h.1) h.2

/-- Whoever is in a project and comes to another one is in that. -/
theorem project (h : tree.IsProjectAt way) : tree.Deepest (· <+: way) (Option.some way) :=
  .some List.prefix_rfl h fun _ hfront _ => hfront.length_le

/-- Otherwise he stays in the one that he is in. -/
theorem stay (hway : ¬ tree.IsProjectAt way)
    (h : tree.Deepest (fun front => front <+: way ∧ front ≠ way) nearest) :
    tree.Deepest (· <+: way) nearest := by
  have hproper {front : List String} (hfront : front <+: way) (hat : tree.IsProjectAt front) :
      front <+: way ∧ front ≠ way := ⟨hfront, fun heq => hway (heq ▸ hat)⟩
  cases h with
  | none h => exact .none fun front hfront hat => h front (hproper hfront hat) hat
  | some hin hat hdeepest =>
    exact .some hin.1 hat fun front hfront hat' => hdeepest front (hproper hfront hat') hat'

/-- What is around an entry of a directory is that directory and what is around it. -/
theorem above_concat (h : tree.Deepest (· <+: way) nearest) (name : String) :
    tree.Deepest (fun front => front <+: way ++ [name] ∧ front ≠ way ++ [name]) nearest := by
  refine h.congr (fun front => ?_) fun _ => Iff.rfl
  rw [List.prefix_concat_iff]
  constructor
  · intro hfront
    refine ⟨.inr hfront, fun heq => ?_⟩
    rw [heq] at hfront
    exact absurd hfront.length_le (by simp)
  · rintro ⟨rfl | hfront, hne⟩
    · exact absurd rfl hne
    · exact hfront

end Deepest

end Entry

namespace Layout

variable {rules : IgnoreRules} {root : Path} {tree : Entry}

/-- What a walk knows where it is: the project that it is in is the deepest one around. -/
def Within (root : Path) (tree : Entry) (owner : Option Path) (directory : Path) (e : Entry) :
    Prop :=
  ∃ way nearest, directory = root.descend way ∧ tree.Holds way e ∧
    tree.Deepest (fun front => front <+: way ∧ front ≠ way) nearest ∧
    owner = nearest.map root.descend

/-- In a directory a walk is in the deepest project on the way there. -/
theorem Within.deepest (h : tree.isDistinct) {owner : Option Path} {directory : Path}
    {entries : List (String × Entry)}
    (hwithin : Within root tree owner directory (.directory entries)) :
    ∃ way nearest, directory = root.descend way ∧ tree.Holds way (.directory entries) ∧
      tree.Deepest (· <+: way) nearest ∧
      (if isProject entries then some directory else owner) = nearest.map root.descend := by
  obtain ⟨way, nearest, rfl, hholds, hdeepest, rfl⟩ := hwithin
  have hproject := Entry.isProjectAt_iff h hholds
  by_cases hat : tree.IsProjectAt way
  · exact ⟨way, some way, rfl, hholds, .project hat, if_pos (hproject.mp hat)⟩
  · exact ⟨way, nearest, rfl, hholds, hdeepest.stay hat, if_neg (hproject.not.mp hat)⟩

theorem isKept_within (h : tree.isDistinct) : IsKept (Within root tree) := by
  rintro owner directory entries hwithin ⟨name, e⟩ hmem
  obtain ⟨way, nearest, rfl, hholds, hdeepest, howner⟩ := hwithin.deepest h
  exact ⟨way ++ [name], nearest, root.descend_child way name,
    Entry.holds_concat.mpr ⟨entries, hholds, hmem⟩, hdeepest.above_concat name, howner⟩

/-- A directory that a walk comes to belongs to the deepest project on the way there. -/
theorem deepest_of_mem_visits (h : tree.isDistinct) {v : Visit}
    (hv : v ∈ visitsFrom rules root (some tree)) :
    ∃ way nearest, v.directory = root.descend way ∧ tree.Holds way (.directory v.entries) ∧
      tree.Deepest (· <+: way) nearest ∧ v.owner = nearest.map root.descend := by
  have hstart : Within root tree none root tree :=
    ⟨[], none, root.descend_nil.symm, rfl, .above_nil, rfl⟩
  obtain ⟨outer, hwithin, howner⟩ := (isKept_within h).of_mem_visits hstart v hv
  rw [howner]
  exact hwithin.deepest h

end Layout

end Concordance
