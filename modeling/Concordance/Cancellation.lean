import Concordance.Failure

/-!
# Cancellation

A token is a flag that only goes one way. Work looks at it between its steps and ends with a
failure once it is up. To say at which look a piece of work was called off, looks are counted.

## Main definitions

* `Token`: the flag with its reason
* `Meter`: a token that is cancelled from a given look on
* `Metered`, `checkpoint`: work that looks at a meter
-/

namespace Concordance

/-! ### Tokens -/

/-- A one way flag with the reason it was raised for. -/
structure Token where
  cancelled : Bool := false
  reason : String := "Operation cancelled"
deriving DecidableEq, Repr

namespace Token

/-- Raise the flag. An empty reason leaves the one before. -/
def cancel (t : Token) (reason : Option String) : Token :=
  match reason with
  | some r => if r = "" then { t with cancelled := true } else ⟨true, r⟩
  | none => { t with cancelled := true }

/-- Raise the flag because whoever waits for the work is gone. -/
def callerGone (t : Token) : Token := t.cancel (some "Request cancelled by caller")

/-- Fail once the flag is up. -/
def check (t : Token) : Except Failure Unit :=
  if t.cancelled then .error (.cancelled t.reason) else .ok ()

/-- Look at a token if there is one. -/
def checkOptional : Option Token → Except Failure Unit
  | some t => t.check
  | none => .ok ()

theorem cancelled_cancel (t : Token) (r : Option String) : (t.cancel r).cancelled = true := by
  cases r with
  | none => rfl
  | some r => by_cases h : r = "" <;> simp [cancel, h]

end Token

/-! ### Counted looks -/

/-- A token that counts the looks at it and is cancelled from look number `limit + 1` on; without
a limit it is never cancelled. -/
structure Meter where
  limit : Option Nat := none
  reason : String := "Operation cancelled"
  looks : Nat := 0
deriving DecidableEq, Repr

/-- Whether a meter passes the next look. -/
def Meter.passes (m : Meter) : Bool :=
  match m.limit with
  | none => true
  | some n => m.looks < n

/-- Work that looks at a meter, with further state of its own. -/
abbrev Metered (σ : Type) := ExceptT Failure (StateM (Meter × σ))

/-- Look at the meter, and fail if it is cancelled. -/
def checkpoint {σ : Type} : Metered σ Unit := do
  let (m, s) ← get
  set ({ m with looks := m.looks + 1 }, s)
  if m.passes then pure () else throw (.cancelled m.reason)

/-- The answer or failure of a piece of work, and the state it leaves. -/
def Metered.runFrom {σ α : Type} (work : Metered σ α) (m : Meter) (s : σ) :
    Except Failure α × Meter × σ :=
  work.run (m, s)

end Concordance
