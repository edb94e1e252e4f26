import Concordance.Sharing.Generation

/-!
# A shared value

A value that is loaded on first use and shared by all who ask for it, until a new load is asked
for. Each load is a generation. One of them is the present one: the latest that was not aborted.
Whoever asks is answered by the present generation, or waits for it. When the last one who waits for
a load leaves before it has an outcome, the load is aborted and the generation that was there before
it is the present one again.

Asking has two steps, between which others may come: looking whether there is an outcome already,
and else starting to wait. So have a load that takes too long, which is noted before the load is
called off, and closing. All other definitions that change a shared value are one step.

## Main definitions

* `Shared`: a shared value
* `Shared.settled?`, `Shared.wait`: the two steps of asking for it
* `Shared.get`, `Shared.reload`: asking for it at once
* `Shared.release`: leaving, with or without an outcome
* `Shared.begin`, `Shared.launch`, `Shared.finish`: how loads go on
* `Shared.expire`, `Shared.giveUp`: the two steps of a load that takes too long
* `Shared.shut`, `Shared.revoke`: the two steps of closing
-/

namespace Concordance.Sharing

/-- The state of the present generation. -/
inductive Phase where
  | unloaded
  | loading
  | ready
  | failed
deriving DecidableEq, Repr

/-- The name of a state. -/
def Phase.name : Phase → String
  | .unloaded => "unloaded"
  | .loading => "loading"
  | .ready => "ready"
  | .failed => "failed"

/-- A shared value: its generations, the latest first, and the present one. -/
structure Shared (α : Type) where
  root : String
  /-- The number of seconds that a load may take, as it is told. -/
  limit : Option String := none
  generations : List (Generation α) := []
  current : Option Nat := none
  closed : Bool := false
  /-- The generation that was present at closing, until its load is called off. -/
  closing : Option Nat := none

/-- What asking for a shared value leads to: the outcome of a load, or waiting for a generation. -/
inductive Capture (α : Type) where
  | outcome (r : Except Failure α)
  | waiting (number : Nat)

namespace Shared

variable {α : Type}

/-- The number of loads that can be under way at the same time. -/
def mostLoads : Nat := 2

/-- A shared value that was not loaded yet; the root has to be given. -/
def ofRoot (root : String) (limit : Option String) : Except Failure (Shared α) :=
  if root = "" then .error (.value "root_path is required") else .ok { root, limit }

/-! ### Looking -/

/-- The generation of a number. -/
def find? (s : Shared α) (n : Nat) : Option (Generation α) :=
  s.generations.find? fun g => g.number = n

/-- The present generation. -/
def present? (s : Shared α) : Option (Generation α) := s.current.bind s.find?

/-- The outcome of the load of a generation, if it has one. -/
def outcome? (s : Shared α) (n : Nat) : Option (Except Failure α) :=
  (s.find? n).bind Generation.outcome?

/-- The state of the present generation. -/
def phase (s : Shared α) : Phase :=
  match s.present? with
  | none => .unloaded
  | some g =>
    match g.outcome? with
    | none => .loading
    | some (.ok _) => .ready
    | some (.error _) => .failed

/-- The number of the present generation, zero for none. -/
def number (s : Shared α) : Nat := s.current.getD 0

/-- Change the generation of a number. -/
def modify (s : Shared α) (n : Nat) (f : Generation α → Generation α) : Shared α :=
  { s with generations := s.generations.map fun g => if g.number = n then f g else g }

/-! ### Asking -/

/-- Start a new generation, which is the present one from now on. -/
def start (s : Shared α) : Shared α × Nat :=
  let n := s.generations.length + 1
  ({ s with generations := { number := n, previous := s.current } :: s.generations
            current := some n }, n)

/-- Wait for a generation. -/
def attach (s : Shared α) (n : Nat) : Shared α :=
  s.modify n Generation.attach

/-- The failure of asking a closed value to load. -/
def closedFailure : Failure := .state "WorkspaceAccessor is closed"

/-- The outcome of the present generation, if it has one. -/
def settled? (s : Shared α) : Option (Except Failure α) := s.present?.bind Generation.outcome?

/-- Start to wait for a generation, for a new one if none is given. -/
def wait (s : Shared α) (target : Option Nat) : Except Failure (Nat × Shared α) :=
  if s.closed then .error closedFailure
  else
    match target with
    | some n => .ok (n, s.attach n)
    | none => .ok (s.start.2, s.start.1.attach s.start.2)

/-- Ask for the value. If the present generation has an outcome, that is the answer, and nothing
changes. -/
def get (s : Shared α) : Except Failure (Capture α × Shared α) :=
  match s.settled? with
  | some r => .ok (.outcome r, s)
  | none => (s.wait s.current).map fun (n, s) => (.waiting n, s)

/-- Ask for a new load. -/
def reload (s : Shared α) : Except Failure (Capture α × Shared α) :=
  (s.wait none).map fun (n, s) => (.waiting n, s)

/-! ### Leaving -/

/-- The latest generation on the way back from a target that was not aborted. -/
def survivor? : (target : Option Nat) → List (Generation α) → Option Nat
  | none, _ => none
  | some _, [] => none
  | some n, g :: rest =>
    if g.number = n then
      if g.aborted then survivor? g.previous rest else some n
    else survivor? (some n) rest

/-- Abort a generation. If it is the present one, go back to the latest one before it that was not
aborted. -/
def abort (s : Shared α) (n : Nat) : Shared α :=
  let s := s.modify n Generation.abort
  if s.current = some n then { s with current := survivor? (some n) s.generations } else s

/-- Stop to wait for a generation. Whoever leaves without an outcome as the last one aborts it. -/
def release (s : Shared α) (n : Nat) (cancelled : Bool) : Shared α :=
  let s := s.modify n Generation.leave
  match s.find? n with
  | some g => if cancelled && g.waiters = 0 && !g.isSettled then s.abort n else s
  | none => s

/-! ### Loads -/

/-- The number of loads that are under way. -/
def running (s : Shared α) : Nat := s.generations.countP Generation.isRunning

/-- The load that begins next: the earliest that has not begun, if there is room. -/
def next? (s : Shared α) : Option Nat :=
  if s.running < mostLoads then
    (s.generations.reverse.find? Generation.isQueued).map Generation.number
  else none

/-- Begin a load unless it has begun. -/
def launch (s : Shared α) (n : Nat) : Shared α :=
  s.modify n Generation.launch

/-- Begin the next load. -/
def begin (s : Shared α) : Shared α :=
  match s.next? with
  | some n => s.launch n
  | none => s

/-- End a load that is under way with a result. -/
def finish (s : Shared α) (n : Nat) (result : Except Failure α) : Shared α :=
  s.modify n fun g => g.finish s.root s.limit result

/-- Note that a load has taken too long, if there is a limit. -/
def expire (s : Shared α) (n : Nat) : Shared α :=
  if s.limit.isSome then s.modify n Generation.expire else s

/-- Call off a load of which that was noted. -/
def giveUp (s : Shared α) (n : Nat) : Shared α :=
  s.modify n fun g => g.giveUp (s.limit.getD "")

/-- Call off a load for having taken too long. -/
def timeOut (s : Shared α) (n : Nat) : Shared α := (s.expire n).giveUp n

/-- Allow no further loads. -/
def shut (s : Shared α) : Shared α :=
  if s.closed then s else { s with closed := true, closing := s.current }

/-- Call off the load that was present at closing if it has no outcome. -/
def revoke (s : Shared α) : Shared α :=
  match s.closing with
  | some n => { s.modify n Generation.revoke with closing := none }
  | none => s

/-- Allow no further loads, and call off the present one if it has no outcome. -/
def close (s : Shared α) : Shared α := s.shut.revoke

end Shared

end Concordance.Sharing
