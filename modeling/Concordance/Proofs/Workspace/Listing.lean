import Concordance.Proofs.Workspace.Nearest

/-!
# The order of entries

A file system lists the entries of a directory in whatever order it likes, and a walk takes them in
the order of their names. So what a walk is given is an arrangement of what there is. The same lies
at the ends of the same ways in both, and a directory is the same project.

## Main definitions

* `Entry.arranged`: a file tree with its entries in the order of their names

## Main results

* `Entry.pairwise_entries_arranged`, `Entry.entries_arranged_perm`: the same entries in order
* `Entry.holds_arranged`, `Entry.holds_file_arranged`: what lies at the end of a way
* `Entry.isDistinct_arranged`: names are as different as they were
* `Layout.ofDirectory_arranged`: what project a directory is
-/

namespace Concordance

namespace Entry

mutual

/-- A file tree in which the entries of every directory are in the order of their names. -/
def arranged : Entry → Entry
  | .file octets => .file octets
  | .directory entries => .directory ((arrangedAll entries).insertionSort fun x y => x.1 ≤ y.1)

/-- Entries with those within them in the order of their names. -/
def arrangedAll : List (String × Entry) → List (String × Entry)
  | [] => []
  | (name, e) :: rest => (name, e.arranged) :: arrangedAll rest

end

@[simp] theorem arranged_file (octets : List UInt8) : (file octets).arranged = file octets := by
  rw [arranged]

theorem arrangedAll_eq (entries : List (String × Entry)) :
    arrangedAll entries = entries.map fun x => (x.1, x.2.arranged) := by
  induction entries with
  | nil => rfl
  | cons x rest ih => rw [arrangedAll, List.map_cons, ih]

@[simp] theorem isDirectory_arranged (e : Entry) : e.arranged.isDirectory = e.isDirectory := by
  cases e with
  | file octets => rw [arranged_file]
  | directory entries =>
    rw [arranged]
    rfl

@[simp] theorem octets?_arranged (e : Entry) : e.arranged.octets? = e.octets? := by
  cases e with
  | file octets => rw [arranged_file]
  | directory entries =>
    rw [arranged]
    rfl

theorem pairwise_entries_arranged (e : Entry) :
    e.arranged.entries.Pairwise fun x y => x.1 ≤ y.1 := by
  have htotal : Std.Total fun x y : String × Entry => x.1 ≤ y.1 :=
    ⟨fun x y => String.le_total x.1 y.1⟩
  have htrans : IsTrans (String × Entry) fun x y => x.1 ≤ y.1 :=
    ⟨fun _ _ _ hxy hyz => String.le_trans hxy hyz⟩
  cases e with
  | file octets => rw [arranged_file]; exact .nil
  | directory entries => rw [arranged]; exact List.pairwise_insertionSort _ _

theorem entries_arranged_perm (e : Entry) :
    e.arranged.entries.Perm (e.entries.map fun x => (x.1, x.2.arranged)) := by
  cases e with
  | file octets => rw [arranged_file]; rfl
  | directory entries =>
    rw [arranged]
    exact (List.perm_insertionSort _ _).trans (arrangedAll_eq entries ▸ .refl _)

theorem mem_entries_arranged {e inner : Entry} {name : String} :
    (name, inner) ∈ e.arranged.entries ↔
      ∃ inner', (name, inner') ∈ e.entries ∧ inner'.arranged = inner := by
  rw [e.entries_arranged_perm.mem_iff]
  simp

/-! ### Ways -/

/-- At the end of a way lies what lay there, arranged. -/
theorem holds_arranged {e f : Entry} {way : List String} :
    e.arranged.Holds way f ↔ ∃ f', e.Holds way f' ∧ f'.arranged = f := by
  induction way generalizing e with
  | nil => exact ⟨fun h => ⟨e, rfl, h⟩, fun ⟨_, he, h⟩ => he ▸ h⟩
  | cons part rest ih =>
    constructor
    · rintro ⟨inner, hmem, h⟩
      obtain ⟨inner', hmem', rfl⟩ := mem_entries_arranged.mp hmem
      obtain ⟨f', hf', heq⟩ := ih.mp h
      exact ⟨f', ⟨inner', hmem', hf'⟩, heq⟩
    · rintro ⟨f', ⟨inner', hmem', hf'⟩, heq⟩
      exact ⟨inner'.arranged, mem_entries_arranged.mpr ⟨inner', hmem', rfl⟩,
        ih.mpr ⟨f', hf', heq⟩⟩

/-- Files are where they were, with what was in them. -/
theorem holds_file_arranged {e : Entry} {way : List String} {octets : List UInt8} :
    e.arranged.Holds way (.file octets) ↔ e.Holds way (.file octets) := by
  rw [holds_arranged]
  constructor
  · rintro ⟨f, hf, heq⟩
    cases f with
    | directory entries =>
      rw [arranged] at heq
      cases heq
    | file octets' =>
      rw [arranged_file] at heq
      exact heq ▸ hf
  · exact fun h => ⟨_, h, arranged_file octets⟩

theorem isProjectAt_arranged {e : Entry} {way : List String} :
    e.arranged.IsProjectAt way ↔ e.IsProjectAt way := by
  simp only [IsProjectAt, holds_file_arranged]

/-! ### Names -/

theorem areDistinct_iff {entries : List (String × Entry)} :
    areDistinct entries ↔ (entries.map Prod.fst).Nodup ∧ ∀ x ∈ entries, x.2.isDistinct := by
  refine ⟨fun h => ⟨nodup_names h, fun x hx => isDistinct_of_mem h hx⟩, ?_⟩
  rintro ⟨hnodup, hinner⟩
  induction entries with
  | nil => rfl
  | cons x rest ih =>
    obtain ⟨hfirst, hrest⟩ := List.nodup_cons.mp hnodup
    refine areDistinct_cons.mpr ⟨fun y hy hname => hfirst ?_, hinner x List.mem_cons_self,
      ih hrest fun y hy => hinner y (List.mem_cons_of_mem _ hy)⟩
    exact hname ▸ List.mem_map_of_mem hy

theorem nodup_entries {e : Entry} (h : e.isDistinct) : (e.entries.map Prod.fst).Nodup := by
  cases e with
  | file octets => exact List.nodup_nil
  | directory entries =>
    rw [isDistinct] at h
    exact nodup_names h

theorem nodup_entries_arranged {e : Entry} (h : e.isDistinct) :
    (e.arranged.entries.map Prod.fst).Nodup := by
  rw [(e.entries_arranged_perm.map Prod.fst).nodup_iff, List.map_map]
  exact nodup_entries h

mutual

theorem isDistinct_arranged : ∀ {e : Entry}, e.isDistinct → e.arranged.isDistinct
  | .file octets, _ => by
    rw [arranged_file]
    rfl
  | .directory entries, h => by
    have hnodup := nodup_entries_arranged h
    rw [isDistinct] at h
    rw [arranged] at hnodup ⊢
    refine areDistinct_iff.mpr ⟨hnodup, fun x hx => ?_⟩
    exact isDistinct_of_mem_arrangedAll h x ((List.mem_insertionSort _).mp hx)

theorem isDistinct_of_mem_arrangedAll : ∀ {entries : List (String × Entry)},
    areDistinct entries → ∀ x ∈ arrangedAll entries, x.2.isDistinct
  | [], _, x, hx => by
    rw [arrangedAll] at hx
    cases hx
  | (name, e) :: rest, h, x, hx => by
    obtain ⟨-, he, hrest⟩ := areDistinct_cons.mp h
    rw [arrangedAll] at hx
    rcases List.mem_cons.mp hx with rfl | hx
    · exact isDistinct_arranged he
    · exact isDistinct_of_mem_arrangedAll hrest x hx

end

/-! ### What a directory says -/

theorem child?_arranged {e : Entry} (h : e.isDistinct) (name : String) :
    e.arranged.child? name = (e.child? name).map arranged := by
  refine Option.ext fun inner => ?_
  rw [Option.map_eq_some_iff, child?, Table.find?_eq_some_iff (nodup_entries_arranged h),
    mem_entries_arranged]
  exact exists_congr fun inner' =>
    and_congr_left' (Table.find?_eq_some_iff (nodup_entries h)).symm

theorem fileIn?_arranged {e : Entry} (h : e.isDistinct) (name : String) :
    e.arranged.fileIn? name = e.fileIn? name := by
  rw [fileIn?, child?_arranged h, Option.bind_map, fileIn?]
  exact Option.bind_congr fun inner _ => octets?_arranged inner

theorem hasSources_arranged {e : Entry} (h : e.isDistinct) :
    Layout.hasSources (some e.arranged) = Layout.hasSources (some e) := by
  simp only [Layout.hasSources, Option.bind_some, child?_arranged h, Option.any_map]
  exact congrArg (Option.any · _) (funext isDirectory_arranged)

end Entry

/-- A directory is the same project in whatever order its entries are. -/
theorem Layout.ofDirectory_arranged {entries arranged : List (String × Entry)}
    (h : (Entry.directory entries).isDistinct)
    (harranged : (Entry.directory entries).arranged = .directory arranged) (directory : Path) :
    ofDirectory directory arranged = ofDirectory directory entries := by
  have hsources := Entry.hasSources_arranged h
  simp only [hasSources, Option.bind_some] at hsources
  rw [ofDirectory, ofDirectory, ← harranged, hsources, Metadata.ofDirectory, Metadata.ofDirectory,
    Entry.fileIn?_arranged h, Entry.fileIn?_arranged h]

end Concordance
