import Concordance.Binding.Codebase
import Mathlib.Data.Finset.Card
import Mathlib.Logic.Relation

/-!
# Running modules

What the names of a module are bound to when its statements are run one after the other, for modules
that consist of class statements and of imports of names. A module that is imported is run to its
end before the import goes on. A later statement binds a name anew, and the import of all names
takes over those that are public, again over whatever they were bound to before.

This is the other side of the binding that a name has at the end of a module: nothing here looks a
name up from its end.

## Main definitions

* `Move`: what a statement does to the names of its module
* `Move.run`, `runMoves`: what moves make of a namespace
* `execute`, `ending`: the namespace of a module that has been run
* `Importing`: modules that can be run

## Main results

* `execute_mono`: a module that has been run ends in the same way whatever more is allowed
* `exists_ending`: every module of an acyclic import graph runs to its end
-/

namespace Concordance.Binding

open Syntax

/-! ### Moves -/

/-- The classes that names are bound to. -/
abbrev Namespace := String → Option ClassId

/-- What a statement does to the names of its module. -/
inductive Move where
  /-- A class statement binds its name. -/
  | declare (name : String) (k : ClassId)
  /-- A name is bound to what a name of another module is bound to. -/
  | take (name target source : String)
  /-- The public names of another module are taken over. -/
  | takeAll (target : String)
deriving DecidableEq

/-- Whether a name is taken over with all others. -/
def isPublic (name : String) : Bool := !name.startsWith "_"

namespace Move

/-- The name that a move binds by itself. -/
def name? : Move → Option String
  | declare name _ => some name
  | take name _ _ => some name
  | takeAll _ => none

/-- The module that a move imports from. -/
def target? : Move → Option String
  | declare _ _ => none
  | take _ target _ => some target
  | takeAll target => some target

/-- The module that a move takes all names from. -/
def wildcard? : Move → Option String
  | takeAll target => some target
  | _ => none

/-- What a move makes of a namespace, where other modules have been run. A name that is not bound
cannot be imported. -/
def run (others : String → Option Namespace) (ns : Namespace) : Move → Option Namespace
  | declare name k => some (Function.update ns name (some k))
  | take name target source => do
    let other ← others target
    let k ← other source
    some (Function.update ns name (some k))
  | takeAll target =>
    (others target).map fun other name =>
      if isPublic name then (other name).or (ns name) else ns name

end Move

/-- What moves make of a module without any names, one after the other. -/
def runMoves (others : String → Option Namespace) (moves : List Move) : Option Namespace :=
  moves.foldlM (Move.run others) fun _ => none

/-! ### Modules -/

/-- What a statement of the module at an index does to its names. -/
def movesOfStatement (m : SourceModule) (index : Nat) : Node → List Move
  | .classDef p name .. => [.declare name ⟨index, ⟨p.line, p.column⟩⟩]
  | .importFrom _ source names level =>
    (Outline.importTarget? m level source).toList.flatMap fun target =>
      names.map fun a =>
        if a.name = "*" then .takeAll target else .take (a.asName.getD a.name) target a.name
  | _ => []

/-- What the statements of the module at an index do to its names, in their order. -/
def movesOf (d : ModuleDecls) (index : Nat) : List Move :=
  d.source.body.flatMap (movesOfStatement d.source index)

section

variable (modules : List ModuleDecls)

/-- The moves of the module of a name. -/
def movesIn (t : String) : List Move :=
  ((modules.zipIdx.find? fun p => p.1.source.name = t).map fun p => movesOf p.1 p.2).getD []

/-- The namespace of a module that is run, where modules that are imported are run in turn, down to
a depth. -/
def execute : (depth : Nat) → String → Option Namespace
  | 0, _ => none
  | depth + 1, t =>
    if t ∈ modules.map fun d => d.source.name then runMoves (execute depth) (movesIn modules t)
    else none

/-- The namespace at the end of a module. No chain of imports holds more modules than there are. -/
def ending (t : String) : Option Namespace := execute modules modules.length t

/-- Whether a statement is one of those that are run here: a class statement, or an import of names
from one of the modules. -/
def IsPlain (m : SourceModule) : Node → Prop
  | .classDef .. => True
  | .importFrom _ source _ level =>
    ∃ t ∈ Outline.importTarget? m level source, t ∈ modules.map fun d => d.source.name
  | _ => False

/-- A module imports from another one. -/
def Imports (t u : String) : Prop := ∃ move ∈ movesIn modules t, move.target? = some u

/-- A statement of a module binds a name, if only by taking over all names. -/
inductive Binds : (t name : String) → Prop
  | own {t name : String} {move : Move} : move ∈ movesIn modules t → move.name? = some name →
      Binds t name
  | taken {t u name : String} : .takeAll u ∈ movesIn modules t → isPublic name → Binds u name →
      Binds t name

/-- Modules that can be run: their names are different, they consist of class statements and imports
from each other that go around no cycle, and every name that is imported is bound. -/
structure Importing : Prop where
  distinct : (modules.map fun d => d.source.name).Nodup
  plain : ∀ d ∈ modules, ∀ stmt ∈ d.source.body, IsPlain modules d.source stmt
  acyclic : ∀ t, ¬ Relation.TransGen (Imports modules) t t
  bound : ∀ t name target source, .take name target source ∈ movesIn modules t →
    Binds modules target source

end

/-- A move of a module belongs to the one of its name. -/
theorem exists_module_of_mem_movesIn {modules : List ModuleDecls} {t : String} {move : Move}
    (h : move ∈ movesIn modules t) :
    ∃ p ∈ modules.zipIdx, p.1.source.name = t ∧ move ∈ movesOf p.1 p.2 := by
  rw [movesIn] at h
  cases hfind : modules.zipIdx.find? fun p => p.1.source.name = t with
  | none =>
    rw [hfind] at h
    cases h
  | some p =>
    rw [hfind] at h
    exact ⟨p, List.mem_of_find?_eq_some hfind, by simpa using List.find?_some hfind, h⟩

/-- Imports go around no cycle if they go down. -/
theorem acyclic_of_rank {modules : List ModuleDecls} (rank : String → Nat)
    (h : ∀ t u, Imports modules t u → rank u < rank t) (t : String) :
    ¬ Relation.TransGen (Imports modules) t t := by
  have hdown : ∀ u, Relation.TransGen (Imports modules) t u → rank u < rank t := by
    intro u hu
    induction hu with
    | single hu => exact h _ _ hu
    | tail _ hv ih => exact (h _ _ hv).trans ih
  exact fun ht => Nat.lt_irrefl _ (hdown t ht)

/-! ### What a run leaves -/

section

variable {others others' : String → Option Namespace} {ns ns' : Namespace} {moves : List Move}

/-- Running moves after others. -/
theorem runMoves_concat (moves : List Move) (move : Move) :
    runMoves others (moves ++ [move]) =
      (runMoves others moves).bind fun ns => move.run others ns := by
  simp [runMoves]

theorem Move.run_mono (h : ∀ t o, others t = some o → others' t = some o) {move : Move}
    (hrun : move.run others ns = some ns') : move.run others' ns = some ns' := by
  cases move with
  | declare name k => exact hrun
  | take name target source =>
    obtain ⟨other, hother, hrest⟩ := Option.bind_eq_some_iff.mp hrun
    exact Option.bind_eq_some_iff.mpr ⟨other, h _ _ hother, hrest⟩
  | takeAll target =>
    obtain ⟨other, hother, hrest⟩ := Option.map_eq_some_iff.mp hrun
    exact Option.map_eq_some_iff.mpr ⟨other, h _ _ hother, hrest⟩

/-- Moves that can be run end in the same way when more modules have been run. -/
theorem runMoves_mono (h : ∀ t o, others t = some o → others' t = some o)
    (hrun : runMoves others moves = some ns) : runMoves others' moves = some ns := by
  induction moves using List.reverseRecOn generalizing ns with
  | nil => exact hrun
  | append_singleton moves move ih =>
    rw [runMoves_concat] at hrun ⊢
    obtain ⟨mid, hmid, hmove⟩ := Option.bind_eq_some_iff.mp hrun
    exact Option.bind_eq_some_iff.mpr ⟨mid, ih hmid, hmove.trans rfl |> Move.run_mono h⟩

/-- A move binds a name: its own one, or a public one of a module that it takes all names from. -/
def Move.Gives (others : String → Option Namespace) (name : String) (move : Move) : Prop :=
  move.name? = some name ∨
    ∃ target other, move = .takeAll target ∧ others target = some other ∧ isPublic name ∧
      (other name).isSome

theorem Move.isSome_of_run {move : Move} (hrun : move.run others ns = some ns') {name : String}
    (h : (ns name).isSome ∨ move.Gives others name) : (ns' name).isSome := by
  cases move with
  | declare n k =>
    cases hrun
    by_cases hn : name = n
    · simp [hn]
    · rcases h with h | h | ⟨_, _, h, -⟩
      · simpa [hn] using h
      · exact absurd (Option.some.inj h).symm hn
      · cases h
  | take n target source =>
    obtain ⟨other, -, hrest⟩ := Option.bind_eq_some_iff.mp hrun
    obtain ⟨k, -, hrest⟩ := Option.bind_eq_some_iff.mp hrest
    cases hrest
    by_cases hn : name = n
    · simp [hn]
    · rcases h with h | h | ⟨_, _, h, -⟩
      · simpa [hn] using h
      · exact absurd (Option.some.inj h).symm hn
      · cases h
  | takeAll target =>
    obtain ⟨other, hother, rfl⟩ := Option.map_eq_some_iff.mp hrun
    by_cases hpublic : isPublic name
    · rcases h with h | h | ⟨_, other', heq, hother', -, hname⟩
      · cases hname : other name <;> simp_all
      · cases h
      · cases heq
        obtain rfl : other = other' := Option.some.inj (hother.symm.trans hother')
        simp [hpublic, hname]
    · rcases h with h | h | ⟨_, _, -, -, hpublic', -⟩
      · simpa [hpublic] using h
      · cases h
      · exact absurd hpublic' hpublic

/-- A name that some move binds is bound in the end. -/
theorem isSome_of_runMoves (hrun : runMoves others moves = some ns) {name : String} {move : Move}
    (hmem : move ∈ moves) (hgives : move.Gives others name) : (ns name).isSome := by
  induction moves using List.reverseRecOn generalizing ns with
  | nil => cases hmem
  | append_singleton moves last ih =>
    rw [runMoves_concat] at hrun
    obtain ⟨mid, hmid, hlast⟩ := Option.bind_eq_some_iff.mp hrun
    refine Move.isSome_of_run hlast ?_
    rcases List.mem_append.mp hmem with hmem | hmem
    · exact .inl (ih hmid hmem)
    · rw [List.mem_singleton.mp hmem] at hgives
      exact .inr hgives

/-- Moves that have been run have found the modules that they import from. -/
theorem exists_other_of_runMoves (hrun : runMoves others moves = some ns) {move : Move}
    (hmem : move ∈ moves) {target : String} (htarget : move.target? = some target) :
    ∃ other, others target = some other := by
  induction moves using List.reverseRecOn generalizing ns with
  | nil => cases hmem
  | append_singleton moves last ih =>
    rw [runMoves_concat] at hrun
    obtain ⟨mid, hmid, hlast⟩ := Option.bind_eq_some_iff.mp hrun
    rcases List.mem_append.mp hmem with hmem | hmem
    · exact ih hmid hmem
    · obtain rfl := List.mem_singleton.mp hmem
      cases move with
      | declare name k => cases htarget
      | take name t source =>
        cases htarget
        obtain ⟨other, hother, -⟩ := Option.bind_eq_some_iff.mp hlast
        exact ⟨other, hother⟩
      | takeAll t =>
        cases htarget
        obtain ⟨other, hother, -⟩ := Option.map_eq_some_iff.mp hlast
        exact ⟨other, hother⟩

/-- Moves can be run where each of them finds what it imports. -/
theorem exists_runMoves
    (h : ∀ move ∈ moves, ∀ target ∈ move.target?, ∃ other, others target = some other ∧
      ∀ name source, move = .take name target source → (other source).isSome) :
    ∃ ns, runMoves others moves = some ns := by
  induction moves using List.reverseRecOn with
  | nil => exact ⟨_, rfl⟩
  | append_singleton moves move ih =>
    obtain ⟨ns, hns⟩ := ih fun m hm => h m (List.mem_append_left _ hm)
    rw [runMoves_concat, hns]
    have hmove := h move (List.mem_append_right _ List.mem_cons_self)
    cases move with
    | declare name k => exact ⟨_, rfl⟩
    | take name target source =>
      obtain ⟨other, hother, hbound⟩ := hmove target rfl
      obtain ⟨k, hk⟩ := Option.isSome_iff_exists.mp (hbound name source rfl)
      exact ⟨_, by simp [Move.run, hother, hk]; rfl⟩
    | takeAll target =>
      obtain ⟨other, hother, -⟩ := hmove target rfl
      exact ⟨_, by simp [Move.run, hother]; rfl⟩

end

/-! ### Every module runs to its end -/

section

variable {modules : List ModuleDecls}

theorem execute_succ (depth : Nat) (t : String) :
    execute modules (depth + 1) t =
      if t ∈ modules.map fun d => d.source.name then
        runMoves (execute modules depth) (movesIn modules t)
      else none := rfl

/-- **A module that has been run ends in the same way whatever more is allowed.** -/
theorem execute_mono {depth depth' : Nat} (hle : depth ≤ depth') {t : String} {ns : Namespace}
    (h : execute modules depth t = some ns) : execute modules depth' t = some ns := by
  induction depth generalizing depth' t ns with
  | zero => cases h
  | succ depth ih =>
    obtain ⟨depth', rfl⟩ := Nat.exists_eq_succ_of_ne_zero (n := depth') (by omega)
    rw [execute_succ] at h ⊢
    by_cases ht : t ∈ modules.map fun d => d.source.name
    · rw [if_pos ht] at h ⊢
      exact runMoves_mono (fun u o ho => ih (by omega) ho) h
    · rw [if_neg ht] at h
      cases h

/-- A name that some statement binds is bound when the module has been run. -/
theorem Binds.isSome {t name : String} (h : Binds modules t name) {depth : Nat} {ns : Namespace}
    (hrun : execute modules depth t = some ns) : (ns name).isSome := by
  induction h generalizing depth ns with
  | own hmem hname =>
    cases depth with
    | zero => cases hrun
    | succ depth =>
      rw [execute_succ] at hrun
      split at hrun
      · exact isSome_of_runMoves hrun hmem (.inl hname)
      · cases hrun
  | @taken t u name hmem hpublic _ ih =>
    cases depth with
    | zero => cases hrun
    | succ depth =>
      rw [execute_succ] at hrun
      split at hrun
      · obtain ⟨other, hother⟩ := exists_other_of_runMoves hrun hmem rfl
        exact isSome_of_runMoves hrun hmem (.inr ⟨u, other, rfl, hother, hpublic, ih hother⟩)
      · cases hrun

/-- What a statement imports from is one of the modules. -/
theorem Importing.mem_of_imports (h : Importing modules) {t u : String}
    (himports : Imports modules t u) : u ∈ modules.map fun d => d.source.name := by
  obtain ⟨move, hmove, htarget⟩ := himports
  obtain ⟨p, hmem, -, hmove⟩ := exists_module_of_mem_movesIn hmove
  obtain ⟨stmt, hstmt, hmove⟩ := List.mem_flatMap.mp hmove
  have hplain := h.plain p.1 (List.fst_mem_of_mem_zipIdx hmem) stmt hstmt
  cases stmt with
  | classDef =>
    obtain rfl := List.mem_singleton.mp hmove
    cases htarget
  | importFrom place source names level =>
    obtain ⟨target, hmem, ht⟩ := hplain
    obtain ⟨target', hmem', hmove⟩ := List.mem_flatMap.mp hmove
    obtain rfl : target = target' :=
      Option.some.inj ((Option.mem_def.mp hmem).symm.trans (Option.mem_toList.mp hmem'))
    obtain ⟨a, -, rfl⟩ := List.mem_map.mp hmove
    split at htarget
    · cases htarget
      exact ht
    · cases htarget
      exact ht
  | _ => cases hplain

/-- A way of imports that leads to a module does not hold it. -/
theorem Importing.nodup_cons (h : Importing modules) {way : List String} (hnodup : way.Nodup)
    {t : String} (hleads : ∀ v ∈ way, Relation.TransGen (Imports modules) v t) :
    (t :: way).Nodup :=
  List.nodup_cons.mpr ⟨fun hmem => h.acyclic t (hleads t hmem), hnodup⟩

/-- A module at the end of a way of imports can be run down to as many modules as are not on the
way. -/
theorem Importing.exists_execute (h : Importing modules) {depth : Nat} {way : List String}
    (hnodup : way.Nodup) (hway : way ⊆ modules.map fun d => d.source.name) {t : String}
    (ht : t ∈ modules.map fun d => d.source.name)
    (hleads : ∀ v ∈ way, Relation.TransGen (Imports modules) v t)
    (hlength : modules.length ≤ depth + way.length) :
    ∃ ns, execute modules depth t = some ns := by
  induction depth generalizing way t with
  | zero =>
    have hle := (List.subperm_of_subset (h.nodup_cons hnodup hleads)
      (List.cons_subset.mpr ⟨ht, hway⟩)).length_le
    simp only [List.length_cons, List.length_map] at hle
    omega
  | succ depth ih =>
    rw [execute_succ, if_pos ht]
    refine exists_runMoves fun move hmove target htarget => ?_
    have himports : Imports modules t target := ⟨move, hmove, htarget⟩
    have hleads' : ∀ v ∈ t :: way, Relation.TransGen (Imports modules) v target := by
      intro v hv
      rcases List.mem_cons.mp hv with rfl | hv
      · exact .single himports
      · exact (hleads v hv).tail himports
    obtain ⟨other, hother⟩ := ih (h.nodup_cons hnodup hleads) (List.cons_subset.mpr ⟨ht, hway⟩)
      (h.mem_of_imports himports) hleads' (by simp only [List.length_cons]; omega)
    refine ⟨other, hother, fun name source heq => ?_⟩
    exact (h.bound t name target source (heq ▸ hmove)).isSome hother

/-- **Every module runs to its end.** -/
theorem Importing.exists_ending (h : Importing modules) {t : String}
    (ht : t ∈ modules.map fun d => d.source.name) : ∃ ns, ending modules t = some ns :=
  h.exists_execute List.nodup_nil nofun ht nofun (Nat.le_add_right _ _)

end

end Concordance.Binding
