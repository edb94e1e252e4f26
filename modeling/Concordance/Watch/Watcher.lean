import Concordance.Workspace.Ignore
import Concordance.Workspace.Metadata

/-!
# Watching a workspace

Changes of sources and metadata files ask for a new load once they have settled: each change
starts a timer in place of the one that is pending, and a timer that runs out makes the call.
Running out, the call and forgetting the pending timer are steps of their own, between which other
things can happen.

## Main definitions

* `isRelevant`: the files whose changes count
* `FileEvent`, `FileEvent.noticed`: events and the files whose changes they tell
* `Watcher`: the timers with their stages, and the steps
* `Watcher.Event`, `Watcher.step`, `Watcher.run`: how it goes on
-/

namespace Concordance.Watch

/-! ### Files -/

/-- The suffix of sources. -/
def sourceSuffix : String := ".py"

/-- Whether the change of a file counts. -/
def isRelevant (rules : IgnoreRules) (p : Path) : Bool :=
  (p.suffix = sourceSuffix || Metadata.fileNames.contains p.name) && !rules.ignores p

/-- What happened to a file or directory. -/
inductive FileEvent where
  | changed (path : String)
  | moved (source target : String)
  | directory
deriving DecidableEq, Repr

/-- The files whose changes an event tells and that count: a file that was moved counts at both of
its places. -/
def FileEvent.noticed (rules : IgnoreRules) (e : FileEvent) : List String :=
  let paths :=
    match e with
    | changed p => [p]
    | moved p q => [p, q]
    | directory => []
  paths.filter fun p => isRelevant rules (.ofText p)

/-! ### Timers -/

/-- How far a timer has come. -/
inductive Stage where
  /-- It runs. -/
  | armed
  /-- It has run out. -/
  | expired
  /-- It has run out, and the pending timer was forgotten. -/
  | calling
  /-- It has made its call. -/
  | finished
  | cancelled
deriving DecidableEq, Repr

/-- The timers that were started, in order, the one that is pending, and the number of calls. -/
structure Watcher where
  timers : List Stage := []
  pending : Option Nat := none
  calls : Nat := 0
deriving DecidableEq, Repr

namespace Watcher

/-- Cancel a timer; once it has run out that is too late. -/
def cancelTimer (w : Watcher) (i : Nat) : Watcher :=
  { w with timers := w.timers.modify i fun s => if s = .armed then .cancelled else s }

/-- Cancel the pending timer. -/
def cancelPending (w : Watcher) : Watcher :=
  match w.pending with
  | some i => w.cancelTimer i
  | none => w

/-- A change: start a timer in place of the pending one. -/
def notify (w : Watcher) : Watcher :=
  let w := w.cancelPending
  { w with timers := w.timers ++ [.armed], pending := some w.timers.length }

/-- A timer runs out. -/
def expire (w : Watcher) (i : Nat) : Watcher :=
  { w with timers := w.timers.modify i fun s => if s = .armed then .expired else s }

/-- A timer that has run out forgets the pending one. -/
def forget (w : Watcher) (i : Nat) : Watcher :=
  if w.timers[i]? = some .expired then
    { w with timers := w.timers.set i .calling, pending := none }
  else w

/-- A timer makes its call. -/
def call (w : Watcher) (i : Nat) : Watcher :=
  if w.timers[i]? = some .calling then
    { w with timers := w.timers.set i .finished, calls := w.calls + 1 }
  else w

/-- Stop: drop the pending timer. -/
def stop (w : Watcher) : Watcher := { w.cancelPending with pending := none }

/-- Make the call without a timer. -/
def fire (w : Watcher) : Watcher := { w with pending := none, calls := w.calls + 1 }

/-- Take notice of an event: the watcher afterwards, and the files that count. -/
def notice (w : Watcher) (rules : IgnoreRules) (e : FileEvent) : Watcher × List String :=
  let paths := e.noticed rules
  (paths.foldl (fun w _ => w.notify) w, paths)

/-! ### Going on -/

/-- What can happen to a watcher. Timers are told by their place. -/
inductive Event where
  | notify
  | expire (timer : Nat)
  | forget (timer : Nat)
  /-- A timer makes its call. The watcher goes on whether the call returns or fails. -/
  | call (timer : Nat) (result : Except Failure Unit)
  | stop

/-- Go on by an event. -/
def step (w : Watcher) : Event → Watcher
  | .notify => w.notify
  | .expire i => w.expire i
  | .forget i => w.forget i
  | .call i _ => w.call i
  | .stop => w.stop

/-- Go on by events, one after the other. -/
def run (w : Watcher) (events : List Event) : Watcher := events.foldl step w

end Watcher

end Concordance.Watch
