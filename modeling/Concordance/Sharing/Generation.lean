import Concordance.Cancellation

/-!
# Generations

A generation is one load of a value that is shared, from its start on. It is numbered, counts the
calls that wait for it, and keeps the outcome of the load once there is one. When all who waited
have gone before that, it is aborted; then it tells which generation was there before it.

## Main definitions

* `Load`: how far a load has come
* `Generation`: a load with those who wait for it
* `Generation.conclude`: what the outcome of a load means for a generation
-/

namespace Concordance.Sharing

/-- How far a load has come. -/
inductive Load (α : Type) where
  | queued
  | running
  | settled (outcome : Except Failure α)

/-- One load of a shared value. -/
structure Generation (α : Type) where
  number : Nat
  /-- The generation that was there before, as long as this one can be aborted or has been. -/
  previous : Option Nat := none
  token : Token := {}
  waiters : Nat := 0
  aborted : Bool := false
  timedOut : Bool := false
  load : Load α := .queued

namespace Generation

variable {α : Type}

/-- The outcome of a generation's load, if it has one. -/
def outcome? (g : Generation α) : Option (Except Failure α) :=
  match g.load with
  | .settled r => some r
  | _ => none

/-- Whether the load has an outcome. -/
def isSettled (g : Generation α) : Bool := g.outcome?.isSome

/-- Whether the load is under way. -/
def isRunning (g : Generation α) : Bool :=
  match g.load with
  | .running => true
  | _ => false

/-- Whether the load has not begun. -/
def isQueued (g : Generation α) : Bool :=
  match g.load with
  | .queued => true
  | _ => false

/-- What those who wait are told about the end of a load: being called off for taking too long is a
failure of the load, as is everything that was not foreseen. -/
def conclude (g : Generation α) (root : String) (limit : Option String)
    (result : Except Failure α) : Except Failure α :=
  match result with
  | .ok a => .ok a
  | .error (.cancelled reason) =>
    if g.timedOut then
      .error (.load ("Loading " ++ root ++ " timed out after " ++ limit.getD "" ++ "s") root)
    else .error (.cancelled reason)
  | .error (.load text place) => .error (.load text place)
  | .error f => .error (.load ("Unexpected error loading " ++ root ++ ": " ++ f.message) root)

/-- Settle the load. The generation before is forgotten unless this one was aborted. -/
def settle (g : Generation α) (outcome : Except Failure α) : Generation α :=
  { g with
    load := .settled outcome
    previous := if g.aborted then g.previous else none }

/-- One more waits for the load. -/
def attach (g : Generation α) : Generation α := { g with waiters := g.waiters + 1 }

/-- One less waits for the load. -/
def leave (g : Generation α) : Generation α := { g with waiters := g.waiters - 1 }

/-- Begin the load unless it has begun. -/
def launch (g : Generation α) : Generation α :=
  if g.isQueued then { g with load := .running } else g

/-- End the load with a result if it is under way. -/
def finish (g : Generation α) (root : String) (limit : Option String)
    (result : Except Failure α) : Generation α :=
  if g.isRunning then g.settle (g.conclude root limit result) else g

/-- Call the load off. -/
def callOff (g : Generation α) (reason : String) : Generation α :=
  { g with token := g.token.cancel (some reason) }

/-- Abort the load because nobody waits for it. -/
def abort (g : Generation α) : Generation α :=
  { g.callOff "All callers waiting for the load were cancelled" with aborted := true }

/-- Note that the load has taken too long, once it has begun. It may have ended in the meantime. -/
def expire (g : Generation α) : Generation α :=
  if g.isQueued then g else { g with timedOut := true }

/-- Call the load off if it was noted that it has taken too long. -/
def giveUp (g : Generation α) (limit : String) : Generation α :=
  if g.timedOut then g.callOff ("Load exceeded " ++ limit ++ "s") else g

/-- Call the load off because the value is closed, unless it has an outcome. -/
def revoke (g : Generation α) : Generation α :=
  if g.isSettled then g else g.callOff "Workspace accessor closed"

end Generation

end Concordance.Sharing
