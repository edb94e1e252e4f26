import Concordance.Query.Answer
import Concordance.Settings.Basic
import Concordance.Workspace.Load

/-!
# Engines

An engine loads the graph of a workspace and searches in it. The one that works on a file tree reads
the tree anew for each load and answers searches from the references that the load has found.

## Main definitions

* `Engine`: what loads graphs and searches in them
* `Engine.ofFiles`: the engine that works on a file tree
-/

namespace Concordance.Service

/-- What loads graphs and searches in them, with state of its own. -/
structure Engine (σ : Type) where
  load : (root : String) → Metered σ Graph
  search : Query.Search σ

/-- What the settings say about loads. -/
def loadLimits (s : Settings) : LoadLimits :=
  { ignorePatterns := s.ignorePatterns, mostBytes := s.mostBytes, mostLines := s.mostLines }

/-- The engine that works on a file tree, which is part of its state. -/
def Engine.ofFiles {σ : Type} (tree : σ → Entry) (s : Settings) : Engine σ where
  load := fun root => do
    let (_, e) ← get
    loadGraph (tree e) (loadLimits s) root
  search := Query.indexed

end Concordance.Service
