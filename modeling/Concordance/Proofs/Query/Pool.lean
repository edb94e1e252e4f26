import Concordance.Query.Resolve
import Mathlib.Data.List.Basic
import Mathlib.Logic.Function.Basic
import Mathlib.Logic.Relation

/-!
# Looking into projects at once

The projects of a graph are looked into by a number of workers. A worker that is free takes the next
project, and what it finds is put down at the place of that project. Workers finish in any order;
once all projects have been looked into, what has been found is put together in their order. So what
is gathered neither depends on the order in which workers finish nor on how many there are.

## Main definitions

* `Pool`, `Pool.Step`: lookups under way, and what can happen to them
* `Lookup.Gathers`: what is gathered in the end

## Main results

* `Pool.length_running_le`: there are no more lookups at once than workers
* `Lookup.gathers_iff`: what is gathered is what each project has, in the order of the projects
-/

namespace Concordance.Query

/-- Lookups under way: how many have been started, those that have not ended, by their places, and
what the others have found. -/
structure Pool where
  started : Nat := 0
  running : List Nat := []
  found : Nat → Option (List Symbol) := fun _ => none

namespace Pool

section

variable (workers : Nat) (typeName : String) (projects : List Project)

/-- What can happen: a worker that is free starts with the next project, or one ends. -/
inductive Step : Pool → Pool → Prop
  | start {p : Pool} : p.started < projects.length → p.running.length < workers →
      Step p { p with started := p.started + 1, running := p.started :: p.running }
  | finish {p : Pool} {i : Nat} {project : Project} : i ∈ p.running → projects[i]? = some project →
      Step p { p with
        running := p.running.erase i
        found := Function.update p.found i (some (typesIn project typeName)) }

/-- Any number of steps from the start. -/
def Reaches (p : Pool) : Prop := Relation.ReflTransGen (Step workers typeName projects) {} p

end

variable {workers : Nat} {typeName : String} {projects : List Project} {p p' : Pool}

/-- There are no more lookups at once than workers. -/
theorem length_running_le (h : Reaches workers typeName projects p) :
    p.running.length ≤ workers := by
  induction h with
  | refl => exact Nat.zero_le _
  | tail _ hstep ih =>
    cases hstep with
    | start hnext hfree => exact hfree
    | finish hrunning hproject => exact Nat.le_trans List.length_erase_le ih

/-- Every lookup that was started is still running or has found what there is to find. -/
def Sound (typeName : String) (projects : List Project) (p : Pool) : Prop :=
  ∀ i < p.started, i ∈ p.running ∨
    p.found i = (projects[i]?).map fun project => typesIn project typeName

theorem Sound.step (h : Sound typeName projects p) (hstep : Step workers typeName projects p p') :
    Sound typeName projects p' := by
  cases hstep with
  | start hnext hfree =>
    intro i hi
    rcases Nat.lt_succ_iff_lt_or_eq.mp hi with hi | rfl
    · exact (h i hi).imp_left (List.mem_cons_of_mem _)
    · exact .inl List.mem_cons_self
  | @finish j project hrunning hproject =>
    intro i hi
    by_cases hij : i = j
    · subst hij
      exact .inr (by simp [hproject])
    · refine (h i hi).imp (fun hmem => (List.mem_erase_of_ne hij).mpr hmem) fun hfound => ?_
      exact (Function.update_of_ne hij _ _).trans hfound

theorem sound_of_reaches (h : Reaches workers typeName projects p) :
    Sound typeName projects p := by
  induction h with
  | refl => exact fun i hi => absurd hi (Nat.not_lt_zero i)
  | tail _ hstep ih => exact ih.step hstep

/-- One worker alone gets through the projects. -/
theorem exists_reaches (typeName : String) (hworkers : 0 < workers) {n : Nat}
    (hn : n ≤ projects.length) :
    ∃ p, Reaches workers typeName projects p ∧ p.started = n ∧ p.running = [] := by
  induction n with
  | zero => exact ⟨{}, .refl, rfl, rfl⟩
  | succ n ih =>
    obtain ⟨p, hreaches, hstarted, hrunning⟩ := ih (by omega)
    have hlt : p.started < projects.length := by omega
    have hstart := hreaches.tail (.start hlt (by rw [hrunning]; exact hworkers))
    have hfinish := hstart.tail
      (.finish List.mem_cons_self (List.getElem?_eq_getElem hlt))
    exact ⟨_, hfinish, by rw [← hstarted], by simp [hrunning]⟩

end Pool

namespace Lookup

/-- The number of workers for some projects: no more than there are projects. -/
def workersFor (l : Lookup) (projects : List Project) : Nat :=
  min l.workers.toNat projects.length

theorem workersFor_pos (l : Lookup) {projects : List Project} (h : projects ≠ []) :
    0 < l.workersFor projects := by
  have hpos := l.workers_pos
  have hlength := List.length_pos_iff.mpr h
  rw [workersFor]
  omega

/-- Lookups can end with what has been found, project by project. -/
def Gathers (l : Lookup) (g : Graph) (typeName : String) (found : List (List Symbol)) : Prop :=
  ∃ p, Pool.Reaches (l.workersFor g.projects) typeName g.projects p ∧
    p.started = g.projects.length ∧ p.running = [] ∧
    found.map some = (List.range g.projects.length).map p.found

/-- **What is gathered is what each project has**, in the order of the projects: whatever the number
of workers, they get through, and in whatever order they do there is nothing else to be gathered. -/
theorem gathers_iff (l : Lookup) (g : Graph) (typeName : String) (found : List (List Symbol)) :
    l.Gathers g typeName found ↔
      found = g.projects.map fun project => typesIn project typeName := by
  have hall : ∀ p, Pool.Reaches (l.workersFor g.projects) typeName g.projects p →
      p.started = g.projects.length → p.running = [] →
      (List.range g.projects.length).map p.found =
        (g.projects.map fun project => typesIn project typeName).map some := by
    intro p hreaches hstarted hrunning
    refine List.ext_getElem (by simp) fun i hi hi' => ?_
    have hlt : i < g.projects.length := by simpa using hi
    have hsound := Pool.sound_of_reaches hreaches i (by omega)
    rw [hrunning, List.getElem?_eq_getElem hlt] at hsound
    simpa using hsound
  constructor
  · rintro ⟨p, hreaches, hstarted, hrunning, hfound⟩
    rw [hall p hreaches hstarted hrunning] at hfound
    exact List.map_injective_iff.mpr (fun _ _ => Option.some.inj) hfound
  · rintro rfl
    by_cases hempty : g.projects = []
    · exact ⟨{}, .refl, by simp [hempty], rfl, by simp [hempty]⟩
    · obtain ⟨p, hreaches, hstarted, hrunning⟩ :=
        Pool.exists_reaches typeName (l.workersFor_pos hempty) (Nat.le_refl g.projects.length)
      exact ⟨p, hreaches, hstarted, hrunning, (hall p hreaches hstarted hrunning).symm⟩

end Lookup

end Concordance.Query
