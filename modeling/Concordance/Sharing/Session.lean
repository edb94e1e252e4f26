import Concordance.Sharing.Shared

/-!
# Calls for a shared value

All calls for a shared value together with the value, as a machine that goes on by events: a call
comes in and captures a generation, a load begins, ends or takes too long, a call is told the
outcome, is cancelled by its caller, or the value is closed. Events come in any order; one that does
not apply changes nothing. Where a matter has two steps between which others may come there is an
event for each of them, and one for both at once.

## Main definitions

* `Call`: a call and how far it has come
* `Session`, `Session.fresh`: a shared value with the calls for it
* `Session.arrive`, `Session.enter`: the two steps of a call that comes in
* `Event`, `Session.step`, `Session.run`: how it goes on
* `Call.answer`: what the caller gets
-/

namespace Concordance.Sharing

/-- What a call asks for. -/
inductive Request where
  | get
  | reload
  /-- The value is wanted in advance: that it cannot be loaded is no failure of the call. -/
  | preload
deriving DecidableEq, Repr

/-- How far a call has come. -/
inductive Status (α : Type) where
  /-- It has come in, and captured no generation yet. -/
  | arrived
  | waiting (number : Nat)
  | done (r : Except Failure α)
  | cancelled

/-- A call. -/
structure Call (α : Type) where
  request : Request
  status : Status α
  /-- The generation that it is answered by. -/
  captured : Option Nat := none

/-- What a caller gets. -/
inductive Answer (α : Type) where
  | pending
  | value (a : α)
  | nothing
  | failed (f : Failure)
  | cancelled

/-- What the caller gets from a call. -/
def Call.answer {α : Type} (c : Call α) : Answer α :=
  match c.status, c.request with
  | .arrived, _ => .pending
  | .waiting _, _ => .pending
  | .cancelled, _ => .cancelled
  | .done (.ok _), .preload => .nothing
  | .done (.ok a), _ => .value a
  | .done (.error (.load ..)), .preload => .nothing
  | .done (.error f), _ => .failed f

/-- A shared value with the calls for it, the earliest first. -/
structure Session (α : Type) where
  shared : Shared α
  calls : List (Call α) := []

/-- What can happen. Calls are told by their place. -/
inductive Event (α : Type) where
  | ask (request : Request)
  | arrive (request : Request)
  | enter (call : Nat)
  | begin
  | launch (number : Nat)
  | finish (number : Nat) (result : Except Failure α)
  | timeOut (number : Nat)
  | expire (number : Nat)
  | giveUp (number : Nat)
  | deliver (call : Nat)
  | cancel (call : Nat)
  | close
  | shut
  | revoke

namespace Session

variable {α : Type}

/-- A value that was not loaded yet and that nobody has asked for. -/
def fresh (root : String) (limit : Option String) : Session α := { shared := { root, limit } }

/-- Change a call. -/
def setCall (s : Session α) (i : Nat) (f : Call α → Call α) : Session α :=
  { s with calls := s.calls.modify i f }

/-- Change the status of a call. -/
def setStatus (s : Session α) (i : Nat) (status : Status α) : Session α :=
  s.setCall i fun c => { c with status }

/-- A call comes in. If the present generation has an outcome, that is the answer, unless the call is
for a new load. -/
def arrive (s : Session α) (request : Request) : Session α :=
  match if request = .reload then none else s.shared.settled? with
  | some r => { s with calls := s.calls ++ [⟨request, .done r, s.shared.current⟩] }
  | none => { s with calls := s.calls ++ [⟨request, .arrived, none⟩] }

/-- The generation that a call which has come in is to wait for; none is a new one. -/
def target (s : Session α) (request : Request) : Option Nat :=
  if request = .reload then none else s.shared.current

/-- A call that has come in starts to wait. -/
def enter (s : Session α) (i : Nat) : Session α :=
  match s.calls[i]? with
  | some ⟨request, .arrived, _⟩ =>
    match s.shared.wait (s.target request) with
    | .ok (n, shared) =>
      { s.setCall i fun c => { c with status := .waiting n, captured := some n } with shared }
    | .error f => s.setStatus i (.done (.error f))
  | _ => s

/-- A call comes in and starts to wait at once if it has to. -/
def ask (s : Session α) (request : Request) : Session α :=
  (s.arrive request).enter s.calls.length

/-- The generation that a call waits for. -/
def awaited? (s : Session α) (i : Nat) : Option Nat :=
  match s.calls[i]? with
  | some ⟨_, .waiting n, _⟩ => some n
  | _ => none

/-- A call is told the outcome of the load that it waits for. -/
def deliver (s : Session α) (i : Nat) : Session α :=
  match s.awaited? i with
  | none => s
  | some n =>
    match s.shared.outcome? n with
    | some r => { s.setStatus i (.done r) with shared := s.shared.release n false }
    | none => s

/-- A caller cancels a call that waits. -/
def cancel (s : Session α) (i : Nat) : Session α :=
  match s.awaited? i with
  | some n => { s.setStatus i .cancelled with shared := s.shared.release n true }
  | none => s

/-- Go on by an event. -/
def step (s : Session α) : Event α → Session α
  | .ask request => s.ask request
  | .arrive request => s.arrive request
  | .enter i => s.enter i
  | .begin => { s with shared := s.shared.begin }
  | .launch n => { s with shared := s.shared.launch n }
  | .finish n result => { s with shared := s.shared.finish n result }
  | .timeOut n => { s with shared := s.shared.timeOut n }
  | .expire n => { s with shared := s.shared.expire n }
  | .giveUp n => { s with shared := s.shared.giveUp n }
  | .deliver i => s.deliver i
  | .cancel i => s.cancel i
  | .close => { s with shared := s.shared.close }
  | .shut => { s with shared := s.shared.shut }
  | .revoke => { s with shared := s.shared.revoke }

/-- Go on by events, one after the other. -/
def run (s : Session α) (events : List (Event α)) : Session α := events.foldl step s

end Session

end Concordance.Sharing
