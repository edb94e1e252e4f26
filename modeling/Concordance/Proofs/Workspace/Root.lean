import Concordance.Proofs.Workspace.Adding
import Concordance.Proofs.Workspace.Parts
import Concordance.Service.Lifespan
import Concordance.Workspace.Root

/-!
# Roots that are accepted

A root is read three times: when it is accepted, when the workspace at it is loaded, and when it is
watched. The first reading takes a path from wherever the process was started, a home for a tilde
and two dots back; the others are only handed what the first one wrote. They agree because what is
written is plain: it starts from the root of the file tree, and no part of it means anything but a
name. So it is read as it was, there is nothing left to be taken back, and no tilde is in front.

Without a tilde and the null character, whoever is refused a root is told that the settings are at
fault, with one exception. Whether something exists cannot be asked of a path that is too long, and
asking fails in a way of its own.

## Main definitions

* `Path.IsPlain`: paths as they are accepted
* `IsUsableRoot`: roots that can be loaded and watched

## Main results

* `Path.IsPlain.ofText_text`: plain paths are read as they were written
* `acceptRoot_eq_ok_iff`: what is accepted
* `isUsableRoot_of_acceptRoot`: what is accepted can be used
* `resolveRoot_eq_ok_iff`: which root a process gets
* `resolveRoot_usable`: it can be used, and what is said where there is none
* `not_always_blamed_on_settings`: a name that is too long
-/

namespace Concordance

namespace Path

/-! ### Parts of what is written -/

theorem splitFrom_of_notMem {acc cs : List Char} (h : '/' ∉ cs) :
    splitFrom acc cs = [String.ofList (acc.reverse ++ cs)] := by
  induction cs generalizing acc with
  | nil => simp [splitFrom]
  | cons c cs ih =>
    rw [List.mem_cons, not_or] at h
    rw [splitFrom, if_neg (Ne.symm h.1), ih h.2]
    simp

theorem isPart_of_notMem {name : String} (hempty : name ≠ "") (hdot : name ≠ ".")
    (hslash : '/' ∉ name.toList) : IsPart name := by
  rw [IsPart, ofText, splitFrom_of_notMem hslash]
  simp [hempty, hdot]

/-- What is read between slashes is a part. -/
theorem isPart_of_mem_ofText {s part : String} (h : part ∈ (ofText s).parts) : IsPart part := by
  have hkept : part ≠ "" ∧ part ≠ "." := by simpa using (List.mem_filter.mp h).2
  exact isPart_of_notMem hkept.1 hkept.2 (slashless_ofText s part h)

/-- A part has no other characters than the text that it is read from. -/
theorem mem_of_mem_splitFrom {acc cs : List Char} {part : String} (h : part ∈ splitFrom acc cs)
    {c : Char} (hc : c ∈ part.toList) : c ∈ acc ∨ c ∈ cs := by
  induction cs generalizing acc with
  | nil =>
    rw [splitFrom, List.mem_singleton] at h
    subst h
    exact .inl (by simpa using hc)
  | cons d cs ih =>
    rw [splitFrom] at h
    split at h
    · rcases List.mem_cons.mp h with rfl | h
      · exact .inl (by simpa using hc)
      · exact .inr (List.mem_cons_of_mem d ((ih h).resolve_left List.not_mem_nil))
    · rcases ih h with hacc | hrest
      · rcases List.mem_cons.mp hacc with rfl | hacc
        · exact .inr List.mem_cons_self
        · exact .inl hacc
      · exact .inr (List.mem_cons_of_mem d hrest)

theorem mem_of_mem_ofText {s part : String} (h : part ∈ (ofText s).parts) {c : Char}
    (hc : c ∈ part.toList) : c ∈ s.toList :=
  (mem_of_mem_splitFrom (List.mem_filter.mp h).1 hc).resolve_left List.not_mem_nil

/-- What is written of parts starts with a character of the first one, which is no slash. -/
theorem exists_cons_intercalate {part : String} (h : IsPart part) (rest : List String) :
    ∃ c cs, ("/".intercalate (part :: rest)).toList = c :: cs ∧ c ≠ '/' := by
  have hmem : part ∈ (ofText part).parts := by
    rw [h]
    exact List.mem_singleton_self part
  have hslash : '/' ∉ part.toList := slashless_ofText part part hmem
  obtain ⟨more, hmore⟩ : ∃ more, ("/".intercalate (part :: rest)).toList = part.toList ++ more := by
    cases rest with
    | nil => exact ⟨[], by simp⟩
    | cons next rest =>
      rw [String.intercalate_cons_cons, String.toList_append, String.toList_append,
        List.append_assoc]
      exact ⟨_, rfl⟩
  cases hpart : part.toList with
  | nil =>
    cases String.toList_eq_nil_iff.mp hpart
    cases h
  | cons c cs =>
    rw [hpart, List.mem_cons, not_or] at hslash
    exact ⟨c, cs ++ more, by rw [hmore, hpart, List.cons_append], Ne.symm hslash.1⟩

/-! ### Plain paths -/

/-- A path as it is accepted: from the root of the file tree on, of parts that are names. -/
structure IsPlain (p : Path) : Prop where
  root : p.root = "/"
  isPart : ∀ part ∈ p.parts, IsPart part
  dotless : p.Dotless

namespace IsPlain

variable {p : Path}

theorem isAbsolute (h : p.IsPlain) : p.isAbsolute := by
  rw [Path.isAbsolute, h.root]
  decide

theorem toList_text (h : p.IsPlain) :
    p.text.toList = '/' :: ("/".intercalate p.parts).toList := by
  rw [text, h.root]
  simp

theorem text_ne (h : p.IsPlain) : p.text ≠ "" := by
  rw [ne_eq, ← String.toList_eq_nil_iff, h.toList_text]
  exact List.cons_ne_nil _ _

/-- A plain path is read as it was written. -/
theorem ofText_text (h : p.IsPlain) : ofText p.text = p := by
  have hparts : (ofText p.text).parts = p.parts := by
    rw [ofText, h.toList_text, splitFrom, if_pos rfl]
    have hread := (parts_ofText_intercalate p.parts).trans (flatMap_parts_of_isPart h.isPart)
    rw [ofText] at hread
    simpa using hread
  have hroot : (ofText p.text).root = p.root := by
    rw [ofText, h.toList_text, h.root, rootOf]
    cases hp : p.parts with
    | nil => rfl
    | cons part rest =>
      obtain ⟨c, cs, hfirst, hc⟩ := exists_cons_intercalate (h.isPart part (by simp [hp])) rest
      rw [hfirst, List.takeWhile_cons_of_pos rfl, List.takeWhile_cons_of_neg (by simpa using hc)]
      rfl
  exact (Path.mk.injEq ..).mpr ⟨hroot, hparts⟩

/-- In a plain path there is nothing to be taken back. -/
theorem normalize_eq (h : p.IsPlain) : p.normalize = p := by
  have hfold (done : List String) {parts : List String} (hdot : ".." ∉ parts) :
      parts.foldl takeBack done = done ++ parts := by
    induction parts generalizing done with
    | nil => simp
    | cons part rest ih =>
      rw [List.mem_cons, not_or] at hdot
      rw [List.foldl_cons, takeBack, if_neg (Ne.symm hdot.1), ih _ hdot.2, List.append_assoc]
      rfl
  rw [normalize, if_pos h.isAbsolute, hfold [] h.dotless, List.nil_append, ← h.root]

/-- A plain path starts with no home. -/
theorem expandHome_eq (h : p.IsPlain) (homes : String → String) :
    p.expandHome homes = .ok p := by
  rw [expandHome, h.isAbsolute]
  cases p.parts <;> rfl

theorem parent (h : p.IsPlain) : p.parent.IsPlain where
  root := h.root
  isPart part hpart := h.isPart part (List.dropLast_subset _ hpart)
  dotless hdot := h.dotless (List.dropLast_subset _ hdot)

end IsPlain

/-- Taking two dots back leaves a plain path. -/
theorem isPlain_normalize {p : Path} (habsolute : p.isAbsolute)
    (hparts : ∀ part ∈ p.parts, IsPart part) : p.normalize.IsPlain where
  root := if_pos habsolute
  isPart part hpart := hparts part (foldl_takeBack_subset [] p.parts hpart)
  dotless := p.dotless_normalize

/-- What a home is put into consists of parts, like the home itself. -/
theorem isPart_of_expandHome {s : String} {homes : String → String} {given : Path}
    (h : (ofText s).expandHome homes = .ok given) : ∀ part ∈ given.parts, IsPart part := by
  have hread : ∀ part ∈ (ofText s).parts, IsPart part := fun _ => isPart_of_mem_ofText
  rw [expandHome] at h
  split at h
  · rename_i first rest hparts
    split at h
    · dsimp only at h
      split at h
      · cases h
      · cases h
        intro part hpart
        rcases List.mem_append.mp hpart with hpart | hpart
        · exact isPart_of_mem_ofText hpart
        · exact hread part (hparts ▸ List.mem_cons_of_mem first hpart)
    · cases h
      exact hread
  · cases h
    exact hread

/-- A path stays as it is if there is no tilde in it. -/
theorem expandHome_of_notMem {s : String} (h : '~' ∉ s.toList) (homes : String → String) :
    (ofText s).expandHome homes = .ok (ofText s) := by
  rw [expandHome]
  split
  · rename_i first rest hparts
    have hfirst : startsWithTilde first = false := by
      refine decide_eq_false fun hhead => h ?_
      exact mem_of_mem_ofText (hparts ▸ List.mem_cons_self) (List.mem_of_mem_head? hhead)
    rw [hfirst, Bool.and_false]
    rfl
  · rfl

theorem hasNull_of_notMem {s : String} (h : '\x00' ∉ s.toList) : (ofText s).hasNull = false := by
  rw [hasNull, List.any_eq_false]
  intro part hpart hnull
  exact h (mem_of_mem_ofText hpart (List.contains_iff_mem.mp hnull))

theorem isAbsolute_append {p : Path} (h : p.isAbsolute) (q : Path) : (p.append q).isAbsolute := by
  rw [append]
  split
  · assumption
  · exact h

theorem isPart_of_mem_append {p q : Path} (hp : ∀ part ∈ p.parts, IsPart part)
    (hq : ∀ part ∈ q.parts, IsPart part) : ∀ part ∈ (p.append q).parts, IsPart part := by
  rw [append]
  split
  · exact hq
  · intro part hpart
    exact (List.mem_append.mp hpart).elim (hp part) (hq part)

end Path

/-! ### What is accepted -/

section

variable {tree : Entry} {root : Path}

/-- What is accepted is not too long, exists, and is a directory or has the name of a metadata
file. It is accepted as it is. -/
theorem acceptRoot_eq_ok_iff {p : Path} :
    acceptRoot tree p = .ok root ↔ root = p ∧ ¬ tree.isTooLongFor p ∧
      ∃ e, tree.follow? p = some e ∧ (e.isDirectory ∨ p.name ∈ Metadata.fileNames) := by
  rw [acceptRoot]
  by_cases hlong : tree.isTooLongFor p
  · simp [hlong]
  rw [if_neg hlong]
  cases hfound : tree.follow? p with
  | none => simp
  | some e =>
    have hkind_iff : (e.isDirectory || Metadata.fileNames.contains p.name) ↔
        e.isDirectory ∨ p.name ∈ Metadata.fileNames := by
      rw [Bool.or_eq_true, List.contains_iff_mem]
    dsimp only
    by_cases hkind : e.isDirectory || Metadata.fileNames.contains p.name
    · rw [if_pos hkind, Except.ok.injEq]
      constructor
      · rintro rfl
        exact ⟨rfl, hlong, e, rfl, hkind_iff.mp hkind⟩
      · rintro ⟨rfl, -⟩
        rfl
    · rw [if_neg hkind]
      constructor
      · exact nofun
      · rintro ⟨-, -, _, ⟨⟩, h⟩
        exact absurd (hkind_iff.mpr h) hkind

/-- What is refused is too long, or the settings are at fault. -/
theorem refused_of_acceptRoot {p : Path} {failure : Failure}
    (h : acceptRoot tree p = .error failure) :
    (∃ text, failure = .configuration text) ∧ ¬ tree.isTooLongFor p ∨
      failure = p.tooLong ∧ tree.isTooLongFor p := by
  rw [acceptRoot] at h
  by_cases hlong : tree.isTooLongFor p
  · rw [if_pos hlong] at h
    cases h
    exact .inr ⟨rfl, hlong⟩
  · rw [if_neg hlong] at h
    refine .inl ⟨?_, hlong⟩
    split at h
    · cases h
      exact ⟨_, rfl⟩
    · split at h
      · cases h
      · cases h
        exact ⟨_, rfl⟩

/-- A root that a server can be started with: it is absolute and it exists; as it is written, it
does not start with a home; the workspace at it can be loaded from a directory, and that directory
is the one that is watched. -/
structure IsUsableRoot (tree : Entry) (root : Path) : Prop where
  isAbsolute : root.isAbsolute
  isThere : (tree.follow? root).isSome
  expandHome_eq : ∀ homes, (Path.ofText root.text).expandHome homes = .ok (Path.ofText root.text)
  directory : ∃ directory, workspaceDirectory tree root.text = .ok directory ∧
    tree.isDirectoryAt directory ∧
    ∀ settings, (Service.Server.watchingAt tree root.text settings).rules.root = directory

/-- What a file is in is a directory. -/
theorem isDirectoryAt_parent (hplain : root.IsPlain) {octets : List UInt8}
    (hfile : tree.follow? root = some (.file octets)) (hname : root.name ∈ Metadata.fileNames) :
    tree.isDirectoryAt root.parent := by
  rcases List.eq_nil_or_concat' root.parts with hnil | ⟨front, last, hlast⟩
  · rw [Path.name, hnil] at hname
    exact absurd hname (by decide)
  · have hchild : root = root.parent.child last := by
      rw [Path.child, Path.parent, hlast, List.dropLast_concat, ← hlast]
    have hdots : last ≠ ".." := by
      rintro rfl
      exact hplain.dotless (by rw [hlast]; exact List.mem_concat_self)
    rw [hchild, Entry.follow?_child hplain.parent.dotless hdots] at hfile
    obtain ⟨here, hhere, hinner⟩ := Option.bind_eq_some_iff.mp hfile
    rw [Entry.isDirectoryAt, hhere]
    cases here with
    | file octets => cases hinner
    | directory entries => rfl

/-- What a plain root stands for when the workspace at it is loaded is what is watched. -/
theorem workspaceDirectory_of_isPlain (hplain : root.IsPlain) {e : Entry}
    (hfound : tree.follow? root = some e)
    (hkind : e.isDirectory ∨ root.name ∈ Metadata.fileNames) :
    let directory := if tree.isFileAt root then root.parent else root
    workspaceDirectory tree root.text = .ok directory ∧ tree.isDirectoryAt directory := by
  intro directory
  -- a file that is accepted has the name of a metadata file, so both readings leave it
  have hdirectory : directory.IsPlain ∧ tree.isDirectoryAt directory ∧
      (if tree.isFileAt root && Metadata.fileNames.contains root.name then root.parent else root) =
        directory := by
    cases e with
    | file octets =>
      have hfile : tree.isFileAt root := by rw [Entry.isFileAt, hfound]; rfl
      have hname : root.name ∈ Metadata.fileNames := hkind.resolve_left Bool.false_ne_true
      have hparent : directory = root.parent := if_pos hfile
      rw [hparent, hfile, List.contains_iff_mem.mpr hname]
      exact ⟨hplain.parent, isDirectoryAt_parent hplain hfound hname, rfl⟩
    | directory entries =>
      have hfile : tree.isFileAt root = false := by rw [Entry.isFileAt, hfound]; rfl
      have hroot : directory = root := if_neg (by rw [hfile]; exact Bool.false_ne_true)
      rw [hroot, hfile]
      exact ⟨hplain, by rw [Entry.isDirectoryAt, hfound]; rfl, rfl⟩
  obtain ⟨hplain', hat, hsame⟩ := hdirectory
  refine ⟨?_, hat⟩
  rw [workspaceDirectory, hplain.ofText_text, hsame]
  rw [Entry.isDirectoryAt] at hat
  split
  · rename_i hnone
    rw [hnone] at hat
    cases hat
  · rename_i hfile
    rw [hfile] at hat
    cases hat
  · exact congrArg Except.ok hplain'.normalize_eq

/-- **What is accepted can be used.** -/
theorem isUsableRoot_of_acceptRoot (hplain : root.IsPlain) (h : acceptRoot tree root = .ok root) :
    IsUsableRoot tree root := by
  obtain ⟨-, -, e, hfound, hkind⟩ := acceptRoot_eq_ok_iff.mp h
  obtain ⟨hload, hat⟩ := workspaceDirectory_of_isPlain hplain hfound hkind
  have hread : Path.ofText root.text = root := hplain.ofText_text
  refine ⟨hplain.isAbsolute, by rw [hfound]; rfl, fun homes => ?_, _, hload, hat,
    fun settings => ?_⟩
  · rw [hread]
    exact hplain.expandHome_eq homes
  · rw [Service.Server.watchingAt, hread]
    rfl

end

/-! ### The root of a process -/

section

variable (tree : Entry) (cwd : String) (argument : Option String)
  (environment : Table String String)

/-- The path that a process is started for, with two dots taken back, if no home is in front. -/
def askedRoot : Path :=
  ((Path.ofText cwd).append (.ofText (chosenRoot argument environment))).normalize

variable {tree cwd argument environment}

/-- A root that a process gets is a plain path that is accepted. -/
theorem acceptRoot_of_resolveRoot {homes : String → String} {root : Path}
    (hcwd : (Path.ofText cwd).isAbsolute)
    (h : resolveRoot tree (.ofText cwd) argument environment homes = .ok root) :
    root.IsPlain ∧ acceptRoot tree root = .ok root := by
  rw [resolveRoot] at h
  split at h
  · cases h
  split at h
  · cases h
  rename_i given hgiven
  split at h
  · cases h
  have hplain : ((Path.ofText cwd).append given).normalize.IsPlain :=
    Path.isPlain_normalize (Path.isAbsolute_append hcwd given)
      (Path.isPart_of_mem_append (fun _ => Path.isPart_of_mem_ofText)
        (Path.isPart_of_expandHome hgiven))
  obtain ⟨rfl, -⟩ := acceptRoot_eq_ok_iff.mp h
  exact ⟨hplain, h⟩

/-- Without a tilde and the null character, what is asked for is accepted or refused as it is. -/
theorem resolveRoot_of_notMem (hnull : '\x00' ∉ (chosenRoot argument environment).toList)
    (htilde : '~' ∉ (chosenRoot argument environment).toList) (homes : String → String) :
    resolveRoot tree (.ofText cwd) argument environment homes =
      if Text.isBlankText (chosenRoot argument environment) then
        .error (.configuration "Workspace root must not be blank")
      else acceptRoot tree (askedRoot cwd argument environment) := by
  rw [resolveRoot, Path.expandHome_of_notMem htilde, askedRoot]
  simp only [Path.hasNull_of_notMem hnull, Bool.false_eq_true, if_false]

/-- Without a tilde and the null character, a process gets the path that it asks for, with two dots
taken back, exactly if that path can be asked for and is of a kind that is accepted. -/
theorem resolveRoot_eq_ok_iff (hnull : '\x00' ∉ (chosenRoot argument environment).toList)
    (htilde : '~' ∉ (chosenRoot argument environment).toList) (homes : String → String)
    {root : Path} :
    resolveRoot tree (.ofText cwd) argument environment homes = .ok root ↔
      ¬ Text.isBlankText (chosenRoot argument environment) ∧
        root = askedRoot cwd argument environment ∧ ¬ tree.isTooLongFor root ∧
          ∃ e, tree.follow? root = some e ∧
            (e.isDirectory ∨ root.name ∈ Metadata.fileNames) := by
  rw [resolveRoot_of_notMem hnull htilde]
  by_cases hblank : Text.isBlankText (chosenRoot argument environment)
  · rw [if_pos hblank]
    exact ⟨nofun, fun h => absurd hblank h.1⟩
  · rw [if_neg hblank, acceptRoot_eq_ok_iff]
    constructor
    · rintro ⟨rfl, h⟩
      exact ⟨hblank, rfl, h⟩
    · rintro ⟨-, rfl, h⟩
      exact ⟨rfl, h⟩

theorem chosenRoot_some {raw : String} (h : raw ≠ "") (environment : Table String String) :
    chosenRoot (some raw) environment = raw := by
  have hgiven : given? (some raw) = some raw := by
    rw [given?, Option.filter_some, if_pos (by simpa using h)]
  rw [chosenRoot, hgiven]
  rfl

/-- A plain path is accepted or refused as it is, wherever the process is started. -/
theorem resolveRoot_of_isPlain {p : Path} (hplain : p.IsPlain) (hnull : p.hasNull = false)
    (directory : Path) (environment : Table String String) (homes : String → String) :
    resolveRoot tree directory (some p.text) environment homes = acceptRoot tree p := by
  have hblank : ¬ Text.isBlankText p.text := by
    rw [Text.isBlankText, hplain.toList_text]
    simp [Text.isBlank, Text.isBlankPoint]
  rw [resolveRoot, chosenRoot_some hplain.text_ne, if_neg hblank, hplain.ofText_text,
    hplain.expandHome_eq]
  simp only [hnull, Bool.false_eq_true, if_false, Path.append, hplain.isAbsolute, if_true,
    hplain.normalize_eq]

/-- **The root of a process.** Wherever it is started, and whatever it is given: a root that it gets
can be used. If what it is given holds no tilde and no null character, then it is refused because of
the settings, except for a path that is too long, which is a failure of another kind. -/
theorem resolveRoot_usable (hcwd : (Path.ofText cwd).isAbsolute) (homes : String → String) :
    (∀ root, resolveRoot tree (.ofText cwd) argument environment homes = .ok root →
      IsUsableRoot tree root) ∧
    ('\x00' ∉ (chosenRoot argument environment).toList →
      '~' ∉ (chosenRoot argument environment).toList →
      ∀ failure, resolveRoot tree (.ofText cwd) argument environment homes = .error failure →
        (∃ text, failure = .configuration text) ∧
            (Text.isBlankText (chosenRoot argument environment) ∨
              ¬ tree.isTooLongFor (askedRoot cwd argument environment)) ∨
          failure = (askedRoot cwd argument environment).tooLong ∧
            ¬ Text.isBlankText (chosenRoot argument environment) ∧
              tree.isTooLongFor (askedRoot cwd argument environment)) := by
  refine ⟨fun root h => ?_, fun hnull htilde failure h => ?_⟩
  · obtain ⟨hplain, haccept⟩ := acceptRoot_of_resolveRoot hcwd h
    exact isUsableRoot_of_acceptRoot hplain haccept
  · rw [resolveRoot_of_notMem hnull htilde] at h
    split at h
    · rename_i hblank
      cases h
      exact .inl ⟨⟨_, rfl⟩, .inl hblank⟩
    · rename_i hblank
      rcases refused_of_acceptRoot h with ⟨htext, hshort⟩ | ⟨hfailure, hlong⟩
      · exact .inl ⟨htext, .inr hshort⟩
      · exact .inr ⟨hfailure, hblank, hlong⟩

/-- A directory with a project in it. -/
def shed : Entry := .directory [("shed", .directory [("setup.py", .file [])])]

/-- From within the directory of a project, its metadata file is accepted by way of a directory that
does not exist, and the directory is used. A file that does not exist is refused. -/
theorem resolveRoot_usable_shed :
    let resolve (given : String) := resolveRoot shed (.ofText "/shed") (some given) []
    (Path.ofText "/shed").isAbsolute ∧
      resolve "lib/../setup.py" = .ok ⟨"/", ["shed", "setup.py"]⟩ ∧
      IsUsableRoot shed ⟨"/", ["shed", "setup.py"]⟩ ∧
      '\x00' ∉ (chosenRoot (some "lib") []).toList ∧ '~' ∉ (chosenRoot (some "lib") []).toList ∧
      ∃ failure, resolve "lib" = .error failure ∧ ∃ text, failure = .configuration text := by
  intro resolve
  have hcwd : (Path.ofText "/shed").isAbsolute := by decide +kernel
  have haccepted : resolve "lib/../setup.py" = .ok ⟨"/", ["shed", "setup.py"]⟩ := by decide +kernel
  have hnull : '\x00' ∉ (chosenRoot (some "lib") []).toList := by decide +kernel
  have htilde : '~' ∉ (chosenRoot (some "lib") []).toList := by decide +kernel
  have hrefused : resolve "lib" =
      .error (.configuration "Workspace root does not exist: /shed/lib") := by decide +kernel
  refine ⟨hcwd, haccepted, (resolveRoot_usable hcwd id).1 _ haccepted, hnull, htilde, _, hrefused,
    ?_⟩
  rcases (resolveRoot_usable hcwd id).2 hnull htilde _ hrefused with ⟨htext, -⟩ | ⟨-, -, hlong⟩
  · exact htext
  · exact absurd hlong (by decide +kernel)

theorem length_le_utf8ByteSize (cs : List Char) : cs.length ≤ (String.ofList cs).utf8ByteSize := by
  induction cs with
  | nil => exact Nat.zero_le _
  | cons c cs ih =>
    have hc : 0 < c.utf8Size := c.utf8Size_pos
    rw [String.ofList_cons, String.utf8ByteSize_append, String.utf8ByteSize_singleton,
      List.length_cons]
    omega

/-- A name with one letter more than a directory can be asked for. -/
def overlongName : String := .ofList (List.replicate (mostNameBytes + 1) 'a')

/-- The path of such a name. -/
def overlong : Path := ⟨"/", [overlongName]⟩

theorem eq_of_mem_overlongName {c : Char} (hc : c ∈ overlongName.toList) : c = 'a' := by
  rw [overlongName, String.toList_ofList] at hc
  exact List.eq_of_mem_replicate hc

theorem isPlain_overlong : overlong.IsPlain := by
  have hother {s : String} (hs : s.toList.head? ≠ some 'a') : overlongName ≠ s := by
    rintro rfl
    refine hs ?_
    rw [overlongName, String.toList_ofList]
    rfl
  have hslash : '/' ∉ overlongName.toList := fun hmem =>
    absurd (eq_of_mem_overlongName hmem) (by decide)
  refine ⟨rfl, fun part hpart => ?_, fun hdots => ?_⟩
  · rw [List.mem_singleton.mp hpart]
    exact Path.isPart_of_notMem (hother (by decide)) (hother (by decide)) hslash
  · exact hother (by decide) (List.mem_singleton.mp hdots).symm

theorem isTooLongFor_overlong : (Entry.directory []).isTooLongFor overlong := by
  have hlong : mostNameBytes < overlongName.utf8ByteSize := by
    have hlength := length_le_utf8ByteSize (List.replicate (mostNameBytes + 1) 'a')
    rw [List.length_replicate] at hlength
    exact hlength
  simp [Entry.isTooLongFor, overlong, Entry.asksTooLong, Entry.isDirectory, hlong]

/-- A directory is asked for a name that is too long, and the settings are not at fault. -/
theorem not_always_blamed_on_settings :
    ¬ ∀ (tree : Entry) (cwd : String) (argument : Option String)
        (environment : Table String String),
      (Path.ofText cwd).isAbsolute → '\x00' ∉ (chosenRoot argument environment).toList →
        '~' ∉ (chosenRoot argument environment).toList →
          ∀ failure, resolveRoot tree (.ofText cwd) argument environment = .error failure →
            ∃ text, failure = .configuration text := by
  intro hall
  have hnot {c : Char} (hslash : c ≠ '/') (ha : c ≠ 'a') :
      c ∉ (chosenRoot (some overlong.text) []).toList := by
    rw [chosenRoot_some isPlain_overlong.text_ne, isPlain_overlong.toList_text, overlong,
      String.intercalate_singleton, List.mem_cons, not_or]
    exact ⟨hslash, fun hmem => ha (eq_of_mem_overlongName hmem)⟩
  have hnull : overlong.hasNull = false := by
    rw [Path.hasNull, overlong, List.any_cons, List.any_nil, Bool.or_false, ← Bool.not_eq_true,
      List.contains_iff_mem]
    exact fun hmem => absurd (eq_of_mem_overlongName hmem) (by decide)
  have hrefused : resolveRoot (.directory []) (.ofText "/") (some overlong.text) [] =
      .error overlong.tooLong := by
    rw [resolveRoot_of_isPlain isPlain_overlong hnull, acceptRoot, if_pos isTooLongFor_overlong]
  obtain ⟨text, htext⟩ := hall _ _ _ _ (by decide) (hnot (by decide) (by decide))
    (hnot (by decide) (by decide)) _ hrefused
  cases htext

end

end Concordance
