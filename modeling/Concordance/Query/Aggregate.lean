import Concordance.Cancellation
import Concordance.Graph

/-!
# Aggregating references

Every distinct symbol is searched once. Locations that are not in source text are dropped, a
location that a symbol already has is dropped, and the rows are sorted, so that no answer depends
on the order or the number of times in which locations come.

## Main definitions

* `Query.Search`: what answers searches
* `Query.aggregate`: the rows of some symbols
-/

namespace Concordance.Query

/-- What finds the locations of a symbol in a graph, with state of its own. -/
abbrev Search (σ : Type) := Graph → Symbol → Metered σ (List Location)

/-- What tells one row of an answer from another: a symbol id, a path and a line. -/
abbrev RowKey := String × String × Int

/-- Collect the rows of one symbol: `seen` holds the keys met so far, `rows` the rows. -/
def collectRows (s : Symbol) : List Location → List RowKey × List Row → List RowKey × List Row
  | [], acc => acc
  | l :: rest, (seen, rows) =>
    let key : RowKey := (s.id, l.path, l.line)
    if l.inSource && !seen.contains key then
      collectRows s rest (key :: seen, ⟨s.displayName, l.path, l.line⟩ :: rows)
    else collectRows s rest (seen, rows)

/-- Search the symbols one after the other, with a look at the meter before each. -/
def searchAll {σ : Type} (search : Search σ) (g : Graph) :
    List Symbol → List RowKey × List Row → Metered σ (List Row)
  | [], (_, rows) => pure rows
  | s :: rest, acc => do
    checkpoint
    let locations ← search g s
    searchAll search g rest (collectRows s locations acc)

/-- The sorted rows of the references to some symbols. -/
def aggregate {σ : Type} (search : Search σ) (g : Graph) (symbols : List Symbol) :
    Metered σ (List Row) := do
  let rows ← searchAll search g (Symbol.distinct symbols) ([], [])
  pure (Row.sort rows)

/-- The locations of a symbol in the indices of a graph, one look at the meter for each index. -/
def lookUp {σ : Type} (id : String) : List ReferenceIndex → Metered σ (List Location)
  | [] => pure []
  | ix :: rest => do
    checkpoint
    let here := (ix.find? fun e => e.1 = id).elim [] Prod.snd
    let others ← lookUp id rest
    pure (here ++ others)

/-- The search that answers from the reference indices of the graph. -/
def indexed {σ : Type} : Search σ := fun g s => lookUp s.id g.references

end Concordance.Query
