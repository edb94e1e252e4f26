import Concordance.Proofs.Declaration.Naming
import Concordance.Workspace.Discovery

/-!
# Names of modules

A source file is a module that is named after its path. Different files of a project have the same
name in four cases only, and these are told from their paths: one lies in the directory for sources
as the other one lies beside it, a file is named like a package, the file of the package of the root
meets a file that is named like the directory of the project, or there are dots in the names of
files or directories.

## Main definitions

* `Path.descend`: a path below a directory
* `Layout.way`, `Layout.moduleParts`: what a module is named after
* `Layout.Owns`: the files that are found in a project
* `Layout.Clash`: the four cases

## Main results

* `Layout.moduleName_eq_iff`: different files have the same name exactly in these cases
* `Layout.slash_notMem_moduleName`: there are no slashes in such a name
-/

namespace Concordance

namespace Path

/-- The path of something below a directory. -/
def descend (p : Path) (rest : List String) : Path := { p with parts := p.parts ++ rest }

theorem descend_descend (p : Path) (a b : List String) :
    (p.descend a).descend b = p.descend (a ++ b) := by
  simp [descend]

theorem relativeTo?_descend (p : Path) (rest : List String) :
    (p.descend rest).relativeTo? p = some ⟨"", rest⟩ :=
  relativeTo?_append p rest

theorem dropStart?_append_append (a b c : List String) :
    dropStart? (a ++ b) (a ++ c) = dropStart? b c := by
  induction a with
  | nil => rfl
  | cons x a ih => simpa [dropStart?] using ih

/-- Seen from a directory within a directory, the first step has to lead there. -/
theorem relativeTo?_child (p : Path) (name : String) (rest : List String) :
    (p.descend rest).relativeTo? (p.child name) =
      if rest.head? = some name then some ⟨"", rest.tail⟩ else none := by
  rw [relativeTo?, child, descend, if_pos rfl, dropStart?_append_append]
  cases rest with
  | nil => rfl
  | cons first rest =>
    simp only [dropStart?, List.head?_cons, Option.some.injEq, List.tail_cons, eq_comm (a := first)]
    split <;> rfl

/-- There is no slash in the parts of a path. -/
def Slashless (p : Path) : Prop := ∀ part ∈ p.parts, '/' ∉ part.toList

/-- The name of a source has a suffix unless there is nothing in front of it. -/
theorem splitSuffix_of_isSourceName {name : String} (hname : Layout.isSourceName name) :
    ∃ front, name.toList = front ++ ".py".toList ∧ splitSuffix name =
      if front.isEmpty then (name, "") else (String.ofList front, ".py") := by
  have hends : name.endsWith ".py" := (Bool.and_eq_true_iff.mp hname).1
  rw [String.endsWith, String.Slice.endsWith_string_iff] at hends
  obtain ⟨front, hfront⟩ : ".py".toList <:+ name.toList := by simpa using hends
  refine ⟨front, hfront.symm, ?_⟩
  rw [splitSuffix, ← hfront]
  simp

/-- The name of a source in front of its suffix tells the source, if there are no dots in it. -/
theorem eq_of_splitSuffix {name : String} (hname : Layout.isSourceName name)
    (hdot : '.' ∉ (splitSuffix name).1.toList) : name = (splitSuffix name).1 ++ ".py" := by
  obtain ⟨front, hfront, hsplit⟩ := splitSuffix_of_isSourceName hname
  rw [hsplit] at hdot ⊢
  split at hdot
  · exact absurd (hfront ▸ List.mem_append_right front List.mem_cons_self) hdot
  · rename_i hempty
    rw [if_neg hempty, ← String.toList_inj, hfront]
    simp

theorem mem_of_mem_splitSuffix {c : Char} {name : String}
    (h : c ∈ (splitSuffix name).1.toList) : c ∈ name.toList := by
  rw [splitSuffix] at h
  split at h
  · exact h
  · rw [String.toList_ofList] at h
    exact List.take_subset _ _ h

end Path

namespace Layout

variable (l : Layout)

/-! ### What a module is named after -/

/-- The parts of the path of a file as seen from the source root, otherwise from the directory of
the project. -/
def below (file : Path) : List String :=
  (((file.relativeTo? l.sourceRoot).or (file.relativeTo? l.directory)).getD file).parts

/-- These parts without the suffix of the last one. -/
def way (file : Path) : List String :=
  (l.below file).dropLast ++ ((l.below file).getLast?.map fun n => (Path.splitSuffix n).1).toList

/-- The parts of the name of the module that a file is; a package is named after its directory. -/
def moduleParts (file : Path) : List String :=
  if (l.way file).getLast? = some "__init__" then (l.way file).dropLast else l.way file

theorem moduleName_eq (file : Path) :
    l.moduleName file =
      if (l.moduleParts file).isEmpty then l.directory.name else joinDots (l.moduleParts file) :=
  rfl

/-- A file that can be found in a project: a source in its directory or anywhere below. -/
def Owns (file : Path) : Prop :=
  ∃ parts name, file = l.directory.descend (parts ++ [name]) ∧ isSourceName name

theorem below_descend (parts : List String) :
    l.below (l.directory.descend parts) =
      if l.hasSourceDirectory ∧ parts.head? = some sourceDirectoryName then parts.tail
      else parts := by
  rw [below, Path.relativeTo?_descend, sourceRoot]
  by_cases hsource : l.hasSourceDirectory
  · rw [if_pos hsource, Path.relativeTo?_child]
    by_cases hhead : parts.head? = some sourceDirectoryName
    · simp [hsource, hhead]
    · simp [hhead]
  · rw [if_neg hsource, Path.relativeTo?_descend]
    simp [hsource]

variable {l} {f f' : Path}

/-- A file of a project lies below the source root or beside it. -/
theorem Owns.lies (h : l.Owns f) :
    ∃ parts name, isSourceName name ∧ l.below f = parts ++ [name] ∧
      (f = l.sourceRoot.descend (parts ++ [name]) ∨
        l.hasSourceDirectory ∧ (parts ++ [name]).head? ≠ some sourceDirectoryName ∧
          f = l.directory.descend (parts ++ [name])) := by
  obtain ⟨parts, name, rfl, hname⟩ := h
  rw [below_descend]
  by_cases hsource : l.hasSourceDirectory
  · by_cases hhead : (parts ++ [name]).head? = some sourceDirectoryName
    · rcases parts with _ | ⟨first, parts⟩
      · obtain rfl : name = sourceDirectoryName := by simpa using hhead
        exact absurd hname (by decide +kernel)
      · obtain rfl : first = sourceDirectoryName := by simpa using hhead
        refine ⟨parts, name, hname, by rw [if_pos ⟨hsource, hhead⟩]; rfl, .inl ?_⟩
        rw [sourceRoot, if_pos hsource]
        exact (Path.descend_descend _ [sourceDirectoryName] _).symm
    · exact ⟨parts, name, hname, if_neg fun h => hhead h.2, .inr ⟨hsource, hhead, rfl⟩⟩
  · refine ⟨parts, name, hname, if_neg fun h => hsource h.1, .inl ?_⟩
    rw [sourceRoot, if_neg hsource]

theorem way_eq {parts : List String} {name : String} (h : l.below f = parts ++ [name]) :
    l.way f = parts ++ [(Path.splitSuffix name).1] := by
  simp [way, h]

/-- A way without dots tells the parts of the path. -/
theorem below_eq_of_way_eq (hf : l.Owns f) (hf' : l.Owns f') (hway : l.way f = l.way f')
    (hdots : ∀ part ∈ l.way f, '.' ∉ part.toList) : l.below f = l.below f' := by
  obtain ⟨parts, name, hname, hbelow, -⟩ := hf.lies
  obtain ⟨parts', name', hname', hbelow', -⟩ := hf'.lies
  rw [way_eq hbelow] at hdots
  rw [way_eq hbelow, way_eq hbelow'] at hway
  obtain ⟨rfl, hstem⟩ := List.append_inj' hway rfl
  have hstem := List.cons_eq_cons.mp hstem |>.1
  have hdot := hdots _ (List.mem_append_right _ List.mem_cons_self)
  rw [hbelow, hbelow', Path.eq_of_splitSuffix hname hdot,
    Path.eq_of_splitSuffix hname' (hstem ▸ hdot), hstem]

/-! ### Clashes -/

/-- The ways in which different files have one name. -/
inductive Clash (l : Layout) : Path → Path → Prop
  /-- One lies in the directory for sources as the other one lies beside it. -/
  | beside {parts : List String} (hsource : l.hasSourceDirectory)
      (hparts : parts.head? ≠ some sourceDirectoryName) :
      Clash l (l.sourceRoot.descend parts) (l.directory.descend parts)
  /-- A file is named like a package. -/
  | package {f f' : Path} (hf : (l.way f).getLast? ≠ some "__init__")
      (hf' : l.way f' = l.way f ++ ["__init__"]) : Clash l f f'
  /-- The package of the root is named like another file. -/
  | root {f f' : Path} (hf : l.moduleParts f = []) (hf' : l.moduleParts f' ≠ [])
      (hname : (l.moduleParts f').flatMap splitDots = splitDots l.directory.name) : Clash l f f'
  /-- There are dots in the parts of a name, which is the same without them. -/
  | dotted {f f' : Path} (hdot : ∃ part ∈ l.moduleParts f, '.' ∈ part.toList)
      (hname : (l.moduleParts f).flatMap splitDots = (l.moduleParts f').flatMap splitDots) :
      Clash l f f'

/-- The name of a module in parts without dots. -/
theorem splitDots_moduleName (l : Layout) (f : Path) :
    splitDots (l.moduleName f) =
      if l.moduleParts f = [] then splitDots l.directory.name
      else (l.moduleParts f).flatMap splitDots := by
  rw [moduleName_eq]
  by_cases h : l.moduleParts f = []
  · simp [h]
  · simp [h, splitDots_joinDots]

theorem moduleName_eq_of_splitDots
    (h : splitDots (l.moduleName f) = splitDots (l.moduleName f')) :
    l.moduleName f = l.moduleName f' := by
  rw [← joinDots_splitDots (l.moduleName f), h, joinDots_splitDots]

theorem moduleName_eq_of_way_eq (h : l.way f = l.way f') : l.moduleName f = l.moduleName f' := by
  rw [moduleName_eq, moduleName_eq, moduleParts, moduleParts, h]

/-- Where two files clash, they have one name. -/
theorem Clash.moduleName_eq (h : l.Clash f f') : l.moduleName f = l.moduleName f' := by
  cases h with
  | @beside parts hsource hparts =>
    refine moduleName_eq_of_way_eq ?_
    have hbelow : l.below (l.sourceRoot.descend parts) = l.below (l.directory.descend parts) := by
      rw [below_descend, if_neg fun h => hparts h.2, below, Path.relativeTo?_descend]
      rfl
    rw [way, way, hbelow]
  | package hf hf' =>
    have hparts : l.moduleParts f = l.moduleParts f' := by
      rw [moduleParts, if_neg hf, moduleParts, hf', if_pos List.getLast?_concat,
        List.dropLast_concat]
    rw [Layout.moduleName_eq, Layout.moduleName_eq, hparts]
  | root hf hf' hname =>
    refine moduleName_eq_of_splitDots ?_
    rw [splitDots_moduleName, splitDots_moduleName, if_pos hf, if_neg hf', hname]
  | dotted hdot hname =>
    obtain ⟨part, hpart, -⟩ := hdot
    have hf : l.moduleParts f ≠ [] := List.ne_nil_of_mem hpart
    have hf' : l.moduleParts f' ≠ [] := by
      intro h
      rw [h, List.flatMap_nil, List.flatMap_eq_nil_iff] at hname
      exact splitDots_ne_nil part (hname part hpart)
    refine moduleName_eq_of_splitDots ?_
    rw [splitDots_moduleName, splitDots_moduleName, if_neg hf, if_neg hf', hname]

/-- Different files with one way lie in the directory for sources and beside it, if there are no
dots in it. -/
theorem clash_of_way_eq (hf : l.Owns f) (hf' : l.Owns f') (hne : f ≠ f')
    (hway : l.way f = l.way f') (hdots : ∀ part ∈ l.way f, '.' ∉ part.toList) :
    l.Clash f f' ∨ l.Clash f' f := by
  have hbelow := below_eq_of_way_eq hf hf' hway hdots
  obtain ⟨parts, name, -, h, hlies⟩ := hf.lies
  obtain ⟨parts', name', -, h', hlies'⟩ := hf'.lies
  rw [← h] at hlies
  rw [← h', ← hbelow] at hlies'
  rcases hlies with heq | ⟨hsource, hhead, heq⟩
  · rcases hlies' with heq' | ⟨hsource, hhead, heq'⟩
    · exact absurd (heq.trans heq'.symm) hne
    · rw [heq, heq']
      exact .inl (.beside hsource hhead)
  · rcases hlies' with heq' | ⟨-, -, heq'⟩
    · rw [heq, heq']
      exact .inr (.beside hsource hhead)
    · exact absurd (heq.trans heq'.symm) hne

/-- A way is that of the name of its module, or leads to the file of the package. -/
theorem way_eq_or (l : Layout) (f : Path) :
    (l.way f).getLast? ≠ some "__init__" ∧ l.way f = l.moduleParts f ∨
      (l.way f).getLast? = some "__init__" ∧ l.way f = l.moduleParts f ++ ["__init__"] := by
  rw [moduleParts]
  by_cases h : (l.way f).getLast? = some "__init__"
  · refine .inr ⟨h, ?_⟩
    obtain ⟨parts, hparts⟩ := List.getLast?_eq_some_iff.mp h
    rw [if_pos h, hparts, List.dropLast_concat]
  · exact .inl ⟨h, (if_neg h).symm⟩

/-- Different files that are named after the same parts without dots clash. -/
theorem clash_of_moduleParts_eq (hf : l.Owns f) (hf' : l.Owns f') (hne : f ≠ f')
    (hparts : l.moduleParts f = l.moduleParts f')
    (hdots : ∀ part ∈ l.moduleParts f, '.' ∉ part.toList) : l.Clash f f' ∨ l.Clash f' f := by
  rcases way_eq_or l f with ⟨hlast, hway⟩ | ⟨hlast, hway⟩ <;>
    rcases way_eq_or l f' with ⟨hlast', hway'⟩ | ⟨hlast', hway'⟩
  · exact clash_of_way_eq hf hf' hne (by rw [hway, hway', hparts]) (hway ▸ hdots)
  · exact .inl (.package hlast (by rw [hway, hway', hparts]))
  · exact .inr (.package hlast' (by rw [hway, hway', hparts]))
  · refine clash_of_way_eq hf hf' hne (by rw [hway, hway', hparts]) fun part hpart => ?_
    rw [hway, List.mem_append, List.mem_singleton] at hpart
    rcases hpart with hpart | rfl
    · exact hdots part hpart
    · decide

/-- Different files of a project have the same name exactly if they clash. -/
theorem moduleName_eq_iff (hf : l.Owns f) (hf' : l.Owns f') :
    l.moduleName f = l.moduleName f' ↔ f = f' ∨ l.Clash f f' ∨ l.Clash f' f := by
  constructor
  · intro h
    by_cases hne : f = f'
    · exact .inl hne
    refine .inr ?_
    have hsplit := congrArg splitDots h
    rw [splitDots_moduleName, splitDots_moduleName] at hsplit
    by_cases hroot : l.moduleParts f = [] <;> by_cases hroot' : l.moduleParts f' = []
    · exact clash_of_moduleParts_eq hf hf' hne (hroot.trans hroot'.symm) (by simp [hroot])
    · rw [if_pos hroot, if_neg hroot'] at hsplit
      exact .inl (.root hroot hroot' hsplit.symm)
    · rw [if_neg hroot, if_pos hroot'] at hsplit
      exact .inr (.root hroot' hroot hsplit)
    · rw [if_neg hroot, if_neg hroot'] at hsplit
      by_cases hdots : ∃ part ∈ l.moduleParts f, '.' ∈ part.toList
      · exact .inl (.dotted hdots hsplit)
      by_cases hdots' : ∃ part ∈ l.moduleParts f', '.' ∈ part.toList
      · exact .inr (.dotted hdots' hsplit.symm)
      simp only [not_exists, not_and] at hdots hdots'
      rw [flatMap_splitDots hdots, flatMap_splitDots hdots'] at hsplit
      exact clash_of_moduleParts_eq hf hf' hne hsplit hdots
  · rintro (rfl | h | h)
    · rfl
    · exact h.moduleName_eq
    · exact h.moduleName_eq.symm

/-! ### Slashes -/

theorem Owns.below_subset (hf : l.Owns f) : l.below f ⊆ f.parts := by
  obtain ⟨parts, name, -, hbelow, hlies⟩ := hf.lies
  rw [hbelow]
  rcases hlies with rfl | ⟨-, -, rfl⟩ <;> exact List.subset_append_right _ _

theorem Owns.directory_subset (hf : l.Owns f) : l.directory.parts ⊆ f.parts := by
  obtain ⟨parts, name, rfl, -⟩ := hf
  exact List.subset_append_left _ _

theorem Owns.slashless_way (hf : l.Owns f) (hslash : f.Slashless) :
    ∀ part ∈ l.way f, '/' ∉ part.toList := by
  obtain ⟨parts, name, -, hbelow, -⟩ := hf.lies
  have hparts := hbelow ▸ hf.below_subset
  intro part hpart
  rw [way_eq hbelow, List.mem_append, List.mem_singleton] at hpart
  rcases hpart with hpart | rfl
  · exact hslash part (hparts (List.mem_append_left _ hpart))
  · exact fun h => hslash name (hparts (List.mem_append_right _ List.mem_cons_self))
      (Path.mem_of_mem_splitSuffix h)

/-- The name of a module has no slash if its path has none. -/
theorem slash_notMem_moduleName (hf : l.Owns f) (hslash : f.Slashless) :
    '/' ∉ (l.moduleName f).toList := by
  rw [moduleName_eq]
  split
  · rw [Path.name, List.getLastD_eq_getLast?]
    cases hlast : l.directory.parts.getLast? with
    | none => decide
    | some part => exact hslash part (hf.directory_subset (List.mem_of_getLast? hlast))
  · intro h
    rcases mem_joinDots h with h | ⟨part, hpart, h⟩
    · exact absurd h (by decide)
    · refine hf.slashless_way hslash part ?_ h
      rw [moduleParts] at hpart
      split at hpart
      · exact List.dropLast_subset _ hpart
      · exact hpart

end Layout

end Concordance
