import Concordance.Declaration.Class

/-!
# Ids of classes

The id of a class is written from the project, the module and the qualified name of the class, with
a slash and a colon between them. What is written can be read again, as long as there is no slash in
the name of the module and no colon in the one of the class: the name of the project may hold any
character. So two classes have the same id only if all three are the same.

Names of modules and of classes are written with dots. A dot within a part is none that can be told
from one between two of them, which is why such names are compared by `splitDots`.

## Main definitions

* `classId`: the id of a class
* `Syntax.Node.classNames`: the names of a class and of the classes within it

## Main results

* `joinDots_eq_iff`: when dotted names are the same
* `classId_eq_iff`: when ids are the same
* `named_of_mem_classes`: the id and the qualified name of a declared class
-/

namespace Concordance

open Syntax

/-! ### Dotted names -/

theorem splitDots_go_append (acc cs ds : List Char) :
    splitDots.go acc (cs ++ '.' :: ds) = splitDots.go acc cs ++ splitDots.go [] ds := by
  induction cs generalizing acc with
  | nil => simp [splitDots.go]
  | cons c cs ih =>
    rw [List.cons_append, splitDots.go, splitDots.go]
    by_cases hc : c = '.'
    · rw [if_pos hc, if_pos hc, ih, List.cons_append]
    · rw [if_neg hc, if_neg hc, ih]

theorem splitDots_go_of_notMem {acc cs : List Char} (h : '.' ∉ cs) :
    splitDots.go acc cs = [String.ofList (acc.reverse ++ cs)] := by
  induction cs generalizing acc with
  | nil => simp [splitDots.go]
  | cons c cs ih =>
    rw [List.mem_cons, not_or] at h
    rw [splitDots.go, if_neg (Ne.symm h.1), ih h.2]
    simp

theorem splitDots_go_ne_nil (acc cs : List Char) : splitDots.go acc cs ≠ [] := by
  induction cs generalizing acc with
  | nil => simp [splitDots.go]
  | cons c cs ih =>
    rw [splitDots.go]
    split
    · exact List.cons_ne_nil _ _
    · exact ih _

theorem joinDots_splitDots_go (acc cs : List Char) :
    joinDots (splitDots.go acc cs) = String.ofList (acc.reverse ++ cs) := by
  induction cs generalizing acc with
  | nil => simp [splitDots.go, joinDots]
  | cons c cs ih =>
    rw [splitDots.go]
    by_cases hc : c = '.'
    · rw [if_pos hc, joinDots, String.intercalate_cons_of_ne_nil (splitDots_go_ne_nil _ _),
        ← joinDots, ih, hc]
      simp [← String.toList_inj]
    · rw [if_neg hc, ih]
      simp

theorem splitDots_ne_nil (s : String) : splitDots s ≠ [] := splitDots_go_ne_nil [] s.toList

/-- A name without dots has one part. -/
theorem splitDots_of_notMem {s : String} (h : '.' ∉ s.toList) : splitDots s = [s] := by
  rw [splitDots, splitDots_go_of_notMem h]
  simp

/-- What is split can be joined again. -/
theorem joinDots_splitDots (s : String) : joinDots (splitDots s) = s := by
  rw [splitDots, joinDots_splitDots_go]
  simp

/-- Splitting what was joined gives more parts if there are dots in those. -/
theorem splitDots_joinDots {parts : List String} (h : parts ≠ []) :
    splitDots (joinDots parts) = parts.flatMap splitDots := by
  induction parts with
  | nil => exact absurd rfl h
  | cons part rest ih =>
    rcases rest with _ | ⟨next, rest⟩
    · simp [joinDots]
    · rw [List.flatMap_cons, ← ih (List.cons_ne_nil _ _), joinDots, String.intercalate_cons_cons,
        ← joinDots, splitDots, String.toList_append, String.toList_append, List.append_assoc]
      exact splitDots_go_append [] _ _

/-- Dotted names are the same if they have the same parts without dots. -/
theorem joinDots_eq_iff {parts parts' : List String} (h : parts ≠ []) (h' : parts' ≠ []) :
    joinDots parts = joinDots parts' ↔ parts.flatMap splitDots = parts'.flatMap splitDots := by
  rw [← splitDots_joinDots h, ← splitDots_joinDots h']
  refine ⟨congrArg splitDots, fun heq => ?_⟩
  rw [← joinDots_splitDots (joinDots parts), heq, joinDots_splitDots]

theorem flatMap_splitDots {parts : List String} (h : ∀ part ∈ parts, '.' ∉ part.toList) :
    parts.flatMap splitDots = parts := by
  induction parts with
  | nil => rfl
  | cons part rest ih =>
    rw [List.flatMap_cons, splitDots_of_notMem (h part List.mem_cons_self),
      ih fun part hpart => h part (List.mem_cons_of_mem _ hpart)]
    rfl

/-- A joined name is made of the characters of its parts and of dots. -/
theorem mem_joinDots {c : Char} {parts : List String} (h : c ∈ (joinDots parts).toList) :
    c = '.' ∨ ∃ part ∈ parts, c ∈ part.toList := by
  induction parts with
  | nil => simp [joinDots] at h
  | cons part rest ih =>
    rcases rest with _ | ⟨next, rest⟩
    · exact .inr ⟨part, List.mem_cons_self, by simpa [joinDots] using h⟩
    · rw [joinDots, String.intercalate_cons_cons, ← joinDots, String.toList_append,
        String.toList_append, List.mem_append, List.mem_append] at h
      rcases h with (h | h) | h
      · exact .inr ⟨part, List.mem_cons_self, h⟩
      · exact .inl (by simpa using h)
      · exact (ih h).imp_right fun ⟨p, hp, hc⟩ => ⟨p, List.mem_cons_of_mem _ hp, hc⟩

/-! ### Ids -/

/-- The last of the separators decides where a list is split, if there is none behind it. -/
theorem append_cons_inj {α : Type} {a : α} {xs xs' ys ys' : List α} (hy : a ∉ ys)
    (hy' : a ∉ ys') : xs ++ a :: ys = xs' ++ a :: ys' ↔ xs = xs' ∧ ys = ys' := by
  refine ⟨fun h => ?_, fun ⟨hx, hy⟩ => hx ▸ hy ▸ rfl⟩
  rcases List.append_eq_append_iff.mp h with ⟨zs, hx, h⟩ | ⟨zs, hx, h⟩
  · rcases zs with _ | ⟨z, zs⟩
    · exact ⟨by simpa using hx.symm, (List.cons_eq_cons.mp h).2⟩
    · obtain ⟨-, rfl⟩ := List.cons_eq_cons.mp h
      exact absurd (List.mem_append_right _ List.mem_cons_self) hy
  · rcases zs with _ | ⟨z, zs⟩
    · exact ⟨by simpa using hx, (List.cons_eq_cons.mp h).2.symm⟩
    · obtain ⟨-, rfl⟩ := List.cons_eq_cons.mp h
      exact absurd (List.mem_append_right _ List.mem_cons_self) hy'

/-- The id of the class of a qualified name in a module of a project. -/
def classId (project module name : String) : String := project ++ "/" ++ module ++ ":" ++ name

/-- An id can be taken apart: at its last colon, and what stands before that at its last slash. -/
theorem classId_eq_iff {project module name project' module' name' : String}
    (hm : '/' ∉ module.toList) (hm' : '/' ∉ module'.toList) (hn : ':' ∉ name.toList)
    (hn' : ':' ∉ name'.toList) :
    classId project module name = classId project' module' name' ↔
      project = project' ∧ module = module' ∧ name = name' := by
  have htext (p m n : String) : (classId p m n).toList =
      (p.toList ++ '/' :: m.toList) ++ ':' :: n.toList := by
    simp [classId]
  rw [← String.toList_inj, htext, htext, append_cons_inj hn hn', append_cons_inj hm hm',
    String.toList_inj, String.toList_inj, String.toList_inj, and_assoc]

/-- Within a project only the colon needs to be found, so that names of modules may hold slashes. -/
theorem classId_eq_iff_of_project {project module name module' name' : String}
    (hn : ':' ∉ name.toList) (hn' : ':' ∉ name'.toList) :
    classId project module name = classId project module' name' ↔
      module = module' ∧ name = name' := by
  have htext (m n : String) : (classId project m n).toList =
      (project.toList ++ '/' :: m.toList) ++ ':' :: n.toList := by
    simp [classId]
  rw [← String.toList_inj, htext, htext, append_cons_inj hn hn', List.append_cancel_left_eq,
    List.cons_inj_right, String.toList_inj, String.toList_inj]

/-! ### Names of classes -/

namespace Syntax.Node

mutual

/-- The names of a class and of the classes within it. -/
def classNames : Node → List String
  | .classDef _ n _ _ body _ => n :: classNamesAll body
  | _ => []

/-- The names of the classes that statements declare, and of those within them. -/
def classNamesAll : List Node → List String
  | [] => []
  | n :: rest => n.classNames ++ classNamesAll rest

end

theorem classNames_subset_classNamesAll {nodes : List Node} {n : Node} (h : n ∈ nodes) :
    n.classNames ⊆ classNamesAll nodes := by
  induction nodes with
  | nil => cases h
  | cons first rest ih =>
    rw [classNamesAll]
    rcases List.mem_cons.mp h with rfl | h
    · exact List.subset_append_left _ _
    · exact List.subset_append_of_subset_right _ (ih h)

end Syntax.Node

/-- A qualified name is made of the characters of the names in it and of dots. -/
theorem notMem_qualify {ch : Char} (hch : ch ≠ '.') {container : Option String} {name : String}
    (hcontainer : ∀ s ∈ container, ch ∉ s.toList) (hname : ch ∉ name.toList) :
    ch ∉ (qualify container name).toList := by
  cases container with
  | none => exact hname
  | some s =>
    rw [qualify]
    split
    · exact hname
    · simp [hch, hcontainer s rfl, hname]

/-- A class that is put together is one of those within it or the class itself. -/
theorem mem_all_of {name : ClassName} {p : Position} {bases body : List Node}
    {nested : List Extracted} {c : ClassDecl}
    (hc : c ∈ (Extracted.of name p bases body nested).all) :
    (∃ x ∈ nested, c ∈ x.all) ∨
      c.symbol.id = name.id ∧ c.symbol.qualifiedName = name.qualified := by
  rcases List.mem_append.mp hc with hc | hc
  · exact .inl (List.mem_flatMap.mp hc)
  · rw [List.mem_singleton.mp hc]
    exact .inr ⟨rfl, rfl⟩

/-- The id of a class is that of its qualified name, which is made of the names of the classes
around it and of its own. -/
theorem named_of_extractClass {m : SourceModule} {ch : Char} (hch : ch ≠ '.') {n : Node}
    {container : Option String} {x : Extracted} (hx : extractClass m container n = some x) :
    ∀ c ∈ x.all,
      c.symbol.id = classId m.project m.name c.symbol.qualifiedName ∧
        ((∀ s ∈ container, ch ∉ s.toList) → (∀ name ∈ n.classNames, ch ∉ name.toList) →
          ch ∉ c.symbol.qualifiedName.toList) := by
  refine extractClass_induction ?_ n container x hx
  intro container p name bases keywords body decorators hbody c hc
  have hown (hcontainer : ∀ s ∈ container, ch ∉ s.toList)
      (hnames : ∀ s ∈ Node.classNames (.classDef p name bases keywords body decorators),
        ch ∉ s.toList) : ch ∉ (qualify container name).toList :=
    notMem_qualify hch hcontainer (hnames name List.mem_cons_self)
  rcases mem_all_of hc with ⟨y, hy, hc⟩ | ⟨hid, hname⟩
  · obtain ⟨s, hs, hy⟩ := mem_extractClasses.mp hy
    obtain ⟨hid, hname⟩ := hbody s hs y hy c hc
    refine ⟨hid, fun hcontainer hnames => hname ?_ fun id hid => hnames id ?_⟩
    · rintro _ ⟨⟩
      exact hown hcontainer hnames
    · exact List.mem_cons_of_mem _ (Node.classNames_subset_classNamesAll hs hid)
  · rw [hid, hname]
    exact ⟨rfl, hown⟩

/-- What is known of the classes of a module. -/
theorem named_of_mem_classes {m : SourceModule} {c : ClassDecl}
    (hc : c ∈ (extractModule m).classes) :
    c.symbol.id = classId m.project m.name c.symbol.qualifiedName ∧
      ∀ ch, ch ≠ '.' → (∀ s ∈ moduleStatements m.body, ∀ name ∈ s.classNames, ch ∉ name.toList) →
        ch ∉ c.symbol.qualifiedName.toList := by
  obtain ⟨x, hx, hc⟩ := List.mem_flatMap.mp hc
  obtain ⟨n, hn, hx⟩ := List.mem_filterMap.mp hx
  have hnamed {ch : Char} (hch : ch ≠ '.') := named_of_extractClass hch hx c hc
  exact ⟨(hnamed (by decide : ':' ≠ '.')).1, fun ch hch hnames =>
    (hnamed hch).2 (fun _ hs => nomatch hs) (hnames n hn)⟩

end Concordance
