import Concordance.Proofs.Watch.Relevance
import Mathlib.Data.List.Forall2

/-!
# Adding a file

A file tree with one more file in one of its directories. Whoever follows a path comes to the same
as before, to a directory with the file somewhere in it, or to the file itself where there was
nothing. So everything that is read on the way to a walk is read as before: a file that is named
like a source is neither a metadata file nor an ignore file.

## Main definitions

* `Entry.Added`: file trees of which one has one more file
* `Entry.isDistinct`: file trees in which no two entries of a directory have the same name
* `Path.Dotless`: paths without two dots

## Main results

* `Entry.seen_follow?`: what a path leads to once a file was added
* `workspaceDirectory_added`, `ignoreRules_added`: what does not change by it
-/

namespace Concordance

/-- The second file tree is the first one with one more file in the directory at the end of a
way. -/
inductive Entry.Added (name : String) (octets : List UInt8) : List String → Entry → Entry → Prop
  | here (before after : List (String × Entry)) (hnew : ∀ x ∈ before ++ after, x.1 ≠ name) :
      Added name octets [] (.directory (before ++ after))
        (.directory (before ++ (name, .file octets) :: after))
  | within {part : String} {rest : List String} {e e' : Entry}
      (before after : List (String × Entry)) (inner : Added name octets rest e e') :
      Added name octets (part :: rest) (.directory (before ++ (part, e) :: after))
        (.directory (before ++ (part, e') :: after))

namespace Path

/-- There are no two dots in a path. -/
def Dotless (p : Path) : Prop := ".." ∉ p.parts

theorem dotless_takeBack {done : List String} {part : String} (h : ".." ∉ done) :
    ".." ∉ takeBack done part := by
  rw [takeBack]
  split
  · exact fun hmem => h (List.dropLast_subset done hmem)
  · rename_i hpart
    simp [h, Ne.symm hpart]

theorem dotless_normalize (p : Path) : p.normalize.Dotless := by
  have hfold (done parts : List String) (h : ".." ∉ done) : ".." ∉ parts.foldl takeBack done := by
    induction parts generalizing done with
    | nil => exact h
    | cons part rest ih => exact ih _ (dotless_takeBack h)
  exact hfold [] p.parts List.not_mem_nil

end Path

namespace Entry

/-! ### Distinct names -/

mutual

/-- Whether no two entries of a directory have the same name, anywhere in a file tree. -/
def isDistinct : Entry → Bool
  | .file _ => true
  | .directory entries => areDistinct entries

/-- Whether no two of some entries have the same name, and neither have any within them. -/
def areDistinct : List (String × Entry) → Bool
  | [] => true
  | (name, e) :: rest => rest.all (fun x => x.1 ≠ name) && e.isDistinct && areDistinct rest

end

theorem areDistinct_cons {name : String} {e : Entry} {rest : List (String × Entry)} :
    areDistinct ((name, e) :: rest) ↔
      (∀ x ∈ rest, x.1 ≠ name) ∧ e.isDistinct ∧ areDistinct rest := by
  rw [areDistinct]
  simp [and_assoc]

theorem isDistinct_of_mem {entries : List (String × Entry)} (h : areDistinct entries)
    {x : String × Entry} (hx : x ∈ entries) : x.2.isDistinct := by
  induction entries with
  | nil => cases hx
  | cons y rest ih =>
    obtain ⟨-, hy, hrest⟩ := areDistinct_cons.mp h
    rcases List.mem_cons.mp hx with rfl | hx
    · exact hy
    · exact ih hrest hx

theorem isDistinct_follow? {root e : Entry} (h : root.isDistinct) {p : Path}
    (he : root.follow? p = some e) : e.isDistinct := by
  refine follow?_keeps (P := fun e => e.isDistinct) (fun entries h x hx => ?_) h he
  rw [isDistinct] at h
  exact isDistinct_of_mem h hx

/-! ### Following a path -/

variable {name : String} {octets : List UInt8}

theorem Added.isDirectory {way : List String} {e e' : Entry} (h : Added name octets way e e') :
    e.isDirectory ∧ e'.isDirectory := by
  cases h <;> exact ⟨rfl, rfl⟩

/-- What is found before and after a file was added: the same, a directory that the file was added
to or below, or nothing at first and then the file. `R` says how it is still to go in the second
case, and `F` what is known in the third one. -/
inductive Seen (name : String) (octets : List UInt8) (R : List String → Prop) (F : Prop) :
    Option Entry → Option Entry → Prop
  | same (found : Option Entry) : Seen name octets R F found found
  | added {rest : List String} {e e' : Entry} (hrest : R rest) (h : Added name octets rest e e') :
      Seen name octets R F (some e) (some e')
  | fresh (h : F) : Seen name octets R F none (some (.file octets))

theorem Seen.mono {R R' : List String → Prop} {F F' : Prop} {found found' : Option Entry}
    (h : Seen name octets R F found found') (hR : ∀ rest, R rest → R' rest) (hF : F → F') :
    Seen name octets R' F' found found' := by
  cases h with
  | same => exact .same _
  | added hrest h => exact .added (hR _ hrest) h
  | fresh h => exact .fresh (hF h)

/-- What is found of files is the same unless it is the one that was added. -/
theorem Seen.octets?_eq {R : List String → Prop} {F : Prop} {found found' : Option Entry}
    (h : Seen name octets R F found found') (hF : ¬ F) :
    found'.bind octets? = found.bind octets? := by
  cases h with
  | same => rfl
  | added _ h => cases h <;> rfl
  | fresh h => exact absurd h hF

/-- One step from a directory that a file was added to or below. -/
theorem Added.seen_child? {way : List String} {here here' : Entry}
    (h : Added name octets way here here') (part : String) :
    Seen name octets (fun rest => way = part :: rest) (way = [] ∧ part = name)
      (here.child? part) (here'.child? part) := by
  cases h with
  | here before after hnew =>
    simp only [child?, entries, Table.find?_append, Table.find?]
    by_cases hpart : name = part
    · have hnone : Table.find? part (before ++ after) = none := by
        refine Option.eq_none_iff_forall_ne_some.mpr fun e he => ?_
        exact hnew _ (Table.mem_of_find? he) hpart.symm
      rw [Table.find?_append, Option.or_eq_none_iff] at hnone
      rw [hnone.1, hnone.2, if_pos hpart]
      exact .fresh ⟨trivial, hpart.symm⟩
    · rw [if_neg hpart]
      exact .same _
  | @within part' rest e e' before after inner =>
    simp only [child?, entries, Table.find?_append, Table.find?]
    cases Table.find? part before with
    | some _ => exact .same _
    | none =>
      by_cases hpart : part' = part
      · simp only [hpart, if_true, Option.none_or]
        exact .added rfl inner
      · simp only [hpart, if_false, Option.none_or]
        exact .same _

theorem followFrom_cons {here : Entry} (outer : List Entry) {part : String} (rest : List String)
    (hdirectory : here.isDirectory) (hpart : part ≠ "..") :
    followFrom (here :: outer) (part :: rest) =
      (here.child? part).bind fun e => followFrom (e :: here :: outer) rest := by
  rw [followFrom, hdirectory, if_neg hpart]
  cases here.child? part <;> rfl

theorem followFrom_file (outer : List Entry) (parts : List String) :
    followFrom (.file octets :: outer) parts =
      if parts = [] then some (.file octets) else none := by
  cases parts <;> rfl

/-- Whoever follows any parts sees what one step can show. -/
theorem seen_followFrom {way way' : List Entry} {parts : List String}
    (h : List.Forall₂ (fun e e' => e = e' ∨ ∃ rest, Added name octets rest e e') way way') :
    Seen name octets (fun _ => True) (parts.getLast? = some name) (followFrom way parts)
      (followFrom way' parts) := by
  induction parts generalizing way way' with
  | nil =>
    cases h with
    | nil => exact .same _
    | cons hhere _ =>
      rcases hhere with rfl | ⟨rest, hadded⟩
      · exact .same _
      · exact .added trivial hadded
  | cons part rest ih =>
    have hlast (hrest : rest.getLast? = some name) : (part :: rest).getLast? = some name := by
      rw [List.getLast?_cons, hrest]
      rfl
    cases h with
    | nil => exact .same _
    | @cons here here' outer outer' hhere houter =>
      have hkind : here'.isDirectory = here.isDirectory := by
        rcases hhere with rfl | ⟨_, hadded⟩
        · rfl
        · rw [hadded.isDirectory.1, hadded.isDirectory.2]
      by_cases hdirectory : here.isDirectory
      · by_cases hpart : part = ".."
        · rw [followFrom, followFrom, hkind, hdirectory, if_pos hpart, if_pos hpart]
          refine (ih ?_).mono (fun _ _ => trivial) hlast
          cases houter with
          | nil => exact .cons hhere .nil
          | cons houter houters => exact .cons houter houters
        · rw [followFrom_cons outer rest hdirectory hpart,
            followFrom_cons outer' rest (hkind.trans hdirectory) hpart]
          have hchild : Seen name octets (fun _ => True) (part = name)
              (here.child? part) (here'.child? part) := by
            rcases hhere with rfl | ⟨_, hadded⟩
            · exact .same _
            · exact (hadded.seen_child? part).mono (fun _ _ => trivial) And.right
          generalize here.child? part = found, here'.child? part = found' at hchild
          cases hchild with
          | same =>
            cases found with
            | none => exact .same _
            | some e =>
              exact (ih (.cons (.inl rfl) (.cons hhere houter))).mono (fun _ _ => trivial) hlast
          | added _ hadded =>
            exact (ih (.cons (.inr ⟨_, hadded⟩) (.cons hhere houter))).mono (fun _ _ => trivial)
              hlast
          | fresh hname =>
            rw [Option.bind_none, Option.bind_some, followFrom_file]
            split
            · rename_i hrest
              exact .fresh (by rw [hrest, hname]; rfl)
            · exact .same _
      · rw [followFrom, followFrom, hkind]
        simp only [hdirectory]
        exact .same _

/-- Whatever path is followed. -/
theorem Added.seen_follow? {way : List String} {tree tree' : Entry}
    (h : Added name octets way tree tree') (p : Path) :
    Seen name octets (fun _ => True) (p.name = name) (tree.follow? p) (tree'.follow? p) := by
  refine (seen_followFrom (.cons (.inr ⟨way, h⟩) .nil)).mono (fun _ h => h) fun hlast => ?_
  rw [Path.name, List.getLastD_eq_getLast?, hlast]
  rfl

/-! ### Paths without two dots -/

/-- The entry at the end of a way from a directory. -/
def inner? (e : Entry) : List String → Option Entry
  | [] => some e
  | part :: rest => (e.child? part).bind fun inner => inner.inner? rest

theorem followFrom_eq_inner? {here : Entry} (outer : List Entry) {parts : List String}
    (h : ".." ∉ parts) : followFrom (here :: outer) parts = here.inner? parts := by
  induction parts generalizing here outer with
  | nil => rfl
  | cons part rest ih =>
    rw [List.mem_cons, not_or] at h
    obtain ⟨hpart, hrest⟩ := h
    cases here with
    | file octets => rfl
    | directory entries =>
      rw [followFrom_cons outer rest rfl (Ne.symm hpart), inner?]
      exact Option.bind_congr fun e _ => ih _ hrest

theorem inner?_concat (e : Entry) (parts : List String) (name : String) :
    e.inner? (parts ++ [name]) = (e.inner? parts).bind fun inner => inner.child? name := by
  induction parts generalizing e with
  | nil =>
    rw [List.nil_append, inner?, inner?, Option.bind_some]
    exact Option.bind_fun_some _
  | cons part rest ih =>
    rw [List.cons_append, inner?, inner?, Option.bind_assoc]
    exact Option.bind_congr fun inner _ => ih inner

/-- What a path leads to in a directory depends on that alone. -/
theorem follow?_child {tree : Entry} {p : Path} (hp : p.Dotless) {name : String}
    (hname : name ≠ "..") :
    tree.follow? (p.child name) = (tree.follow? p).bind fun here => here.child? name := by
  have hchild : ".." ∉ p.parts ++ [name] := by
    rw [List.mem_append, List.mem_singleton, not_or]
    exact ⟨hp, Ne.symm hname⟩
  rw [follow?, follow?, followFrom_eq_inner? [] hp, Path.child, followFrom_eq_inner? [] hchild,
    inner?_concat]

/-- Whoever goes a way without two dots sees the file at the end of the way to it. -/
theorem Added.seen_inner? {way parts : List String} {here here' : Entry}
    (h : Added name octets way here here') :
    Seen name octets (fun rest => way = parts ++ rest) (parts = way ++ [name])
      (here.inner? parts) (here'.inner? parts) := by
  induction parts generalizing way here here' with
  | nil => exact .added rfl h
  | cons part rest ih =>
    rw [inner?, inner?]
    have hchild := h.seen_child? part
    generalize here.child? part = found, here'.child? part = found' at hchild
    cases hchild with
    | same => exact .same _
    | added hway hadded =>
      subst hway
      exact (ih hadded).mono (fun _ h => h ▸ rfl) fun h => h ▸ rfl
    | fresh h =>
      obtain ⟨rfl, rfl⟩ := h
      cases rest with
      | nil => exact .fresh rfl
      | cons _ _ => exact .same _

theorem Added.seen_dotless {way : List String} {tree tree' : Entry}
    (h : Added name octets way tree tree') {p : Path} (hp : p.Dotless) :
    Seen name octets (fun rest => way = p.parts ++ rest) (p.parts = way ++ [name])
      (tree.follow? p) (tree'.follow? p) := by
  rw [follow?, follow?, followFrom_eq_inner? [] hp, followFrom_eq_inner? [] hp]
  exact h.seen_inner?

end Entry

/-! ### What is read before a walk -/

/-- There are no two dots in the directory that a load starts from. -/
theorem dotless_workspaceDirectory {tree : Entry} {root : String} {directory : Path}
    (h : workspaceDirectory tree root = .ok directory) : directory.Dotless := by
  obtain ⟨p, rfl, -⟩ := exists_normalize_of_workspaceDirectory h
  exact p.dotless_normalize

section

variable {tree tree' : Entry} {name : String} {octets : List UInt8} {way : List String}
  (h : Entry.Added name octets way tree tree') (hname : Layout.isSourceName name)

include h hname

/-- A root stands for the same directory. -/
theorem workspaceDirectory_added {root : String} {directory : Path}
    (hroot : workspaceDirectory tree root = .ok directory) :
    workspaceDirectory tree' root = .ok directory := by
  have hfile : (tree'.isFileAt (Path.ofText root) &&
      Metadata.fileNames.contains (Path.ofText root).name) =
        (tree.isFileAt (Path.ofText root) &&
          Metadata.fileNames.contains (Path.ofText root).name) := by
    by_cases hmetadata : (Path.ofText root).name ∈ Metadata.fileNames
    · rw [Entry.isFileAt, Entry.isFileAt, (h.seen_follow? (Path.ofText root)).octets?_eq]
      rintro rfl
      exact Watch.notMem_fileNames hname hmetadata
    · simp [hmetadata]
  unfold workspaceDirectory at hroot ⊢
  simp only [hfile] at hroot ⊢
  split at hroot
  · cases hroot
  · cases hroot
  · rename_i entries hfound
    have hseen := h.seen_follow? (if tree.isFileAt (Path.ofText root) &&
      Metadata.fileNames.contains (Path.ofText root).name then (Path.ofText root).parent
        else Path.ofText root)
    rw [hfound] at hseen
    generalize tree'.follow? _ = found' at hseen ⊢
    cases hseen with
    | same => exact hroot
    | added _ hadded =>
      cases hadded <;> exact hroot

/-- The ignore file of a directory says the same. -/
theorem ignoreRules_added (directory : Path) (patterns : List String) :
    ignoreRules tree' directory patterns = ignoreRules tree directory patterns := by
  have hseen := h.seen_follow? (directory.child IgnoreRules.fileName)
  rw [ignoreRules, ignoreRules, hseen.octets?_eq]
  intro hlast
  rw [Path.name, Path.child, List.getLastD_concat] at hlast
  have hignore : ¬ Layout.isSourceName IgnoreRules.fileName := by decide +kernel
  exact hignore (hlast ▸ hname)

end

end Concordance
