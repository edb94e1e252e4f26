import Concordance.Service.Engine
import Concordance.Service.Request
import Concordance.Sharing.Shared

/-!
# The service

The service answers requests about one workspace. Its graph is a shared value; an engine loads it
and searches in it. Arguments are checked before anything else, then the graph is taken, then the
query runs on it. Requests come one after the other here: a load that a request starts has ended
before the next request.

## Main definitions

* `Service`, `Service.ofSettings`: a service
* `Service.answer`: the value that answers a request
* `Service.shutDown`: no further loads and queries
-/

namespace Concordance

/-- A service: its settings, its graph, and whether it was shut down. -/
structure Service where
  settings : Settings
  shared : Sharing.Shared Graph
  stopped : Bool := false

namespace Service

open Sharing

/-- Work of a service with an engine's state. -/
abbrev Work (σ : Type) := ExceptT Failure (StateM (Service × σ))

/-- A service for a workspace. -/
def ofSettings (settings : Settings) (root : String) : Except Failure Service :=
  (Shared.ofRoot root (some (toString settings.loadTimeout))).map fun shared => { settings, shared }

variable {σ : Type}

/-- Change the graph. -/
def setShared (shared : Shared Graph) : Work σ Unit :=
  modify fun (s, e) => ({ s with shared }, e)

/-- Run metered work of the engine, which nothing calls off. -/
def engineWork {α : Type} (work : Metered σ α) : Work σ (Except Failure α) := do
  let (s, e) ← get
  let (result, _, e) := work.runFrom {} e
  set (s, e)
  pure result

/-- Load a generation that a request waits for, and leave it with the outcome. -/
def await (engine : Engine σ) (n : Nat) : Work σ Graph := do
  let (s, _) ← get
  setShared s.shared.begin
  let result ← engineWork (engine.load s.shared.root)
  let (s, _) ← get
  let shared := s.shared.finish n result
  setShared (shared.release n false)
  match (shared.find? n).bind Generation.outcome? with
  | some (.ok g) => pure g
  | some (.error f) => throw f
  | none => throw (.state "")

/-- Take the graph, as it is or loaded again. -/
def graph (engine : Engine σ) (again : Bool) : Work σ Graph := do
  let (s, _) ← get
  match if again then s.shared.reload else s.shared.get with
  | .error f => throw f
  | .ok (.outcome (.ok g), _) => pure g
  | .ok (.outcome (.error f), _) => throw f
  | .ok (.waiting n, shared) =>
    setShared shared
    await engine n

/-- The rows of the references to a target. -/
def references (engine : Engine σ) (t : Target) : Work σ (List Row) := do
  match t.filter with
  | .error f => throw f
  | .ok filter =>
    let g ← graph engine false
    let (s, _) ← get
    if s.stopped then throw (.state "cannot schedule new futures after shutdown")
    match ← engineWork (Query.answer engine.search g filter t.kind) with
    | .ok rows => pure rows
    | .error f => throw f

/-- The value that answers a request. -/
def answer (engine : Engine σ) : Request → Work σ Json.Value
  | .projects => do
    let g ← graph engine false
    pure (.array (g.projects.map projectValue))
  | .refresh => do
    let _ ← graph engine true
    pure (.object [("Ok", .bool true)])
  | .references t => do
    let rows ← references engine t
    pure (.array (rows.map (rowValue (symbolColumn t.kind))))

/-- Allow no further loads and queries. -/
def shutDown (s : Service) : Service := { s with stopped := true, shared := s.shared.close }

end Service

end Concordance
