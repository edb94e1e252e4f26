import Concordance.Failure.Shown
import Concordance.Service.Basic
import Concordance.Watch.Watcher
import Concordance.Workspace.Load

/-!
# The life of a server

A server holds a service from its start to its end. At the start the workspace may be loaded in
advance and watched; each change that settled then loads it again. Nobody waits for this work, so
that its failures are logged.

## Main definitions

* `backgroundLine`: what is logged about work that nobody waits for
* `Server`: a service that may watch its workspace
* `Server.enter`, `Server.change`, `Server.stopWatching`: the steps of its life
-/

namespace Concordance.Service

open Watch

/-! ### Work in the background -/

/-- How work that nobody waits for ended. -/
inductive Ending where
  | done
  | cancelled
  | failed (f : Failure)
deriving DecidableEq, Repr

/-- The line that is logged about work that nobody waits for: only failures are worth one. -/
def backgroundLine (description : String) : Ending → Option String
  | .failed f => some (description ++ " failed: " ++ f.shown)
  | _ => none

/-- How work ended that gives a value or a failure. -/
def Ending.ofResult {α : Type} : Except Failure α → Ending
  | .ok _ => .done
  | .error f => .failed f

/-! ### Servers -/

/-- What is watched: the files that do not count, with the directory, and the seconds to wait. -/
structure Watching where
  rules : IgnoreRules
  quietPeriod : Float

/-- A service that may watch its workspace, with the lines logged so far. -/
structure Server where
  service : Service
  /-- Whether the workspace is watched from the start on. -/
  watch : Bool
  watching : Option Watching := none
  logged : List String := []

namespace Server

/-- A server for a service; without a choice the settings tell whether it watches. -/
def ofService (service : Service) (watch : Option Bool) : Server :=
  { service, watch := watch.getD service.settings.watch }

/-- What is watched for a root: a file stands for the directory around it. -/
def watchingAt (tree : Entry) (root : String) (settings : Settings) : Watching :=
  let given := Path.ofText root
  let directory := if tree.isFileAt given then given.parent else given
  ⟨ignoreRules tree directory settings.ignorePatterns, settings.quietPeriod⟩

variable {σ : Type}

/-- Work of a server with an engine's state. -/
abbrev Life (σ : Type) := StateM (Server × σ)

/-- Log a line. -/
def log (line : String) : Life σ Unit :=
  modify fun (s, e) => ({ s with logged := s.logged ++ [line] }, e)

/-- Log how work ended that nobody waits for. -/
def logEnding (description : String) (ending : Ending) : Life σ Unit :=
  match backgroundLine description ending with
  | some line => log line
  | none => pure ()

/-- Let the service work. -/
def serve {α : Type} (work : Work σ α) : Life σ (Except Failure α) := do
  let (s, e) ← get
  let (result, service, e) := work.run (s.service, e)
  set ({ s with service }, e)
  pure result

/-- Load the workspace in advance. That it cannot be loaded is told to whoever asks for it. -/
def preload (engine : Engine σ) : Life σ Unit := do
  match ← serve (graph engine false) with
  | .error (.load ..) => pure ()
  | result => logEnding "Workspace preload" (.ofResult result)

/-- Load the workspace again after a change. That it cannot be loaded is logged. -/
def refreshAfterChange (engine : Engine σ) : Life σ (Except Failure Unit) := do
  match ← serve (graph engine true) with
  | .ok _ => pure (.ok ())
  | .error (.load text _) => do
    log ("Automatic refresh failed: " ++ text)
    pure (.ok ())
  | .error f => pure (.error f)

/-- A change settled. Without a watch nobody notices. -/
def change (engine : Engine σ) : Life σ Unit := do
  let (s, _) ← get
  if s.watching.isSome then
    logEnding "Automatic refresh" (.ofResult (← refreshAfterChange engine))

/-- Start: load in advance and watch, as the settings say. -/
def enter (engine : Engine σ) (tree : Entry) : Life σ Unit := do
  let (s, _) ← get
  if s.watch then
    let watching := watchingAt tree s.service.shared.root s.service.settings
    set ({ s with watching := some watching }, (← get).2)
  if s.service.settings.preload then preload engine

/-- Stop to watch. -/
def stopWatching : Life σ Unit := modify fun (s, e) => ({ s with watching := none }, e)

end Server

end Concordance.Service
