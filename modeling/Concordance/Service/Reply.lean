import Concordance.Json.Printer
import Concordance.Service.Basic

/-!
# Replies

A request of a client is answered by a text. On the way the client is told what is going on: that
the request came in, how many rows there are, or why there is no answer. If the client cannot be
told that the request came in, the request is not looked at.

## Main definitions

* `Note`: what a client is told
* `serialize`: a value as a text
* `reply`: the text that answers a request, with the notes
-/

namespace Concordance.Service

/-- What a client is told. -/
inductive Note where
  | info (text : String)
  | error (text : String)
deriving DecidableEq, Repr

/-- A value as a text, indented by a number of blanks, or without any for none. -/
def serialize (v : Json.Value) (indent : Int) : String :=
  Json.render .unicode (if indent = 0 then .compact else .indented indent.toNat) v

/-- What a client is told about a failure. A request that was called off is not commented on. -/
def failureNote (title : String) (f : Failure) : List Note :=
  match f with
  | .cancelled _ => []
  | .load text _ => [.error ("Workspace could not be loaded: " ++ text)]
  | f =>
    if f.isBadValue then [.error ("Invalid arguments for " ++ title ++ ": " ++ f.message)]
    else [.error ("Unexpected error during " ++ title ++ ": " ++ f.message)]

/-- What a client is told about a value: the number of rows, if it consists of rows. -/
def valueNote (title : String) : Json.Value → List Note
  | .array rows => [.info (title ++ ": " ++ toString rows.length ++ " rows")]
  | _ => []

/-- The failure of telling a client that is gone. -/
def goneFailure : Failure := .state "session closed"

variable {σ : Type}

/-- The text that answers a request, with what the client was told. `gone` tells that the client can
be told nothing. -/
def reply (engine : Engine σ) (gone : Bool) (r : Request) :
    StateM (Service × σ) (Except Failure String × List Note) := do
  if gone then return (.error goneFailure, [])
  let asked := [Note.info r.title]
  match ← (answer engine r).run with
  | .error f => return (.error f, asked ++ failureNote r.title f)
  | .ok v =>
    let (s, _) ← get
    return (.ok (serialize v s.settings.indent), asked ++ valueNote r.title v)

end Concordance.Service
