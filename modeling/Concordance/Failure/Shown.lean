import Concordance.Failure
import Concordance.Text.Quoted

/-!
# Failures as they are logged

A failure in a line of a log: with its cause and, between quotes, its wording; or in a report of its
own, with the name of the cause in full.

## Main definitions

* `Failure.shown`: a failure within a line
* `Failure.report`: a failure on its own
-/

namespace Concordance.Failure

/-- A failure within a line. The wording for a missing key is quoted already. -/
def shown (f : Failure) : String :=
  let text :=
    match f with
    | .key t => t
    | f => Text.quoteText f.message
  f.kindName ++ "(" ++ text ++ ")"

/-- The name of a cause in full. -/
def fullName (f : Failure) : String :=
  if f.isOwn then "workspace_xref.errors." ++ f.kindName else f.kindName

/-- A failure on its own. -/
def report (f : Failure) : String :=
  if f.message = "" then f.fullName else f.fullName ++ ": " ++ f.message

end Concordance.Failure
