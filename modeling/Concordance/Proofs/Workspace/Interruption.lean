import Concordance.Proofs.Interruption
import Concordance.Workspace.Load

/-!
# Loads that are called off

A load looks at the meter once for each directory that it walks through, for each source file before
it is read and for each module before its references are collected. Much is forgiven in between:
sources that are too large, too long or not to be parsed are skipped, and so are the references of
modules that are nested too deeply. None of this is done by seeing a failure and going on, so a load
forgives nothing that it is called off for, and never ends in a part of a graph.

## Main results

* `Layout.plain_ofTree`: the walk
* `plain_readProject`, `plain_collectProjects`: reading sources and collecting references
* `plain_loadGraph`: a load takes the same number of looks on any kind of state
-/

namespace Concordance

open Metered

namespace Layout

variable (rules : IgnoreRules)

mutual

theorem plain_walk (owner : Option Path) (directory : Path) :
    ∀ e : Entry, Plain fun σ => (walk rules owner directory e : Metered σ Found)
  | .file _ => by
    simp only [walk]
    exact plain_pure _
  | .directory entries => by
    have hrest := fun (own : List Layout) owner =>
      (plain_walkAll owner directory entries).bind fun found =>
        plain_pure (Found.append ⟨own, (sourcesIn rules directory entries).map fun f => (owner, f)⟩
          found)
    simp only [walk]
    refine plain_checkpoint.bind fun _ => ?_
    split
    · cases ofDirectory directory entries with
      | ok l => exact (plain_pure [l]).bind fun own => hrest own _
      | error e => exact (plain_throw e).bind fun own => hrest own _
    · exact (plain_pure []).bind fun own => hrest own _

theorem plain_walkAll (owner : Option Path) (directory : Path) :
    ∀ entries : List (String × Entry),
      Plain fun σ => (walkAll rules owner directory entries : Metered σ Found)
  | [] => by
    simp only [walkAll]
    exact plain_pure _
  | (name, e) :: rest => by
    have hrest := fun found : Found => (plain_walkAll owner directory rest).bind fun more =>
      plain_pure (found.append more)
    simp only [walkAll]
    split
    · exact (plain_walk owner _ e).bind hrest
    · exact (plain_pure {}).bind hrest

end

theorem plain_ofTree (root : Path) (tree : Option Entry) :
    Plain fun σ => (ofTree rules root tree : Metered σ (List Layout)) := by
  cases tree with
  | none => exact plain_pure []
  | some e => exact (plain_walk rules none root e).bind fun found => plain_pure _

end Layout

theorem plain_readProject (limits : LoadLimits) (layout : Layout) :
    Plain fun σ => (readProject limits layout : Metered σ ReadProject) := by
  unfold readProject
  exact .foldlM (fun p file => plain_checkpoint.bind fun _ => plain_pure _) layout.files _

/-! ### References -/

theorem plain_resolveWith {α : Type} (work : Binding.Resolve α) (cache : Binding.Cache) :
    Plain fun σ => (resolveWith work cache : Metered σ (α × Binding.Cache)) := by
  unfold resolveWith
  rcases work.run cache with ⟨_ | a, cache⟩
  · exact plain_throw _
  · exact plain_pure (a, cache)

variable (c : Binding.Codebase)

/-- Leaving the references of a module out is no look more and no look less. -/
theorem plain_collectModules (first : Nat) (ix : ReferenceIndex) (cache : Binding.Cache)
    (modules : List ModuleDecls) :
    Plain fun σ =>
      (collectModules c first ix cache modules : Metered σ (ReferenceIndex × Binding.Cache)) := by
  induction modules generalizing first ix cache with
  | nil => exact plain_pure (ix, cache)
  | cons m rest ih =>
    refine plain_checkpoint.bind fun _ => ?_
    split
    · exact ih _ _ _
    · exact (plain_resolveWith _ cache).bind fun found => ih _ _ _

theorem plain_collectProjects (first : Nat) (cache : Binding.Cache) (projects : List ReadProject) :
    Plain fun σ => (collectProjects c first cache projects : Metered σ (List ReferenceIndex)) := by
  induction projects generalizing first cache with
  | nil => exact plain_pure []
  | cons p rest ih =>
    exact (plain_collectModules c first [] cache p.modules).bind fun collected =>
      (ih _ _).bind fun references => plain_pure _

/-! ### Loads -/

/-- A load takes the same number of looks on any kind of state, and leaves the state as it is. -/
theorem plain_loadGraph (tree : Entry) (limits : LoadLimits) (root : String) :
    Plain fun σ => (loadGraph tree limits root : Metered σ Graph) := by
  unfold loadGraph
  cases workspaceDirectory tree root with
  | error e => exact plain_throw e
  | ok directory =>
    refine (Layout.plain_ofTree _ directory (tree.follow? directory)).bind fun layouts => ?_
    refine (Plain.mapM (plain_readProject limits) layouts).bind fun projects => ?_
    refine (plain_resolveWith _ []).bind fun resolved => ?_
    exact (plain_collectProjects _ 0 _ projects).bind fun references => plain_pure _

end Concordance
