import Concordance.Symbol
import Concordance.Text.Blank
import Concordance.Text.Lowercase

/-!
# Query filters

The arguments of a query, checked: a type name that is not blank, an optional namespace, a member
name that is not blank if there is one, and the accessors that are meant.

## Main definitions

* `AccessorSelection.parse`: an accessor token, read without regard to case and outer blanks
* `Query.Filter`, `Query.Filter.check`, `Query.Filter.create`: the checked arguments
-/

namespace Concordance

/-- Read an accessor token. A blank or missing one means both accessors. -/
def AccessorSelection.parse (token : Option String) : Except Failure AccessorSelection :=
  match token with
  | none => .ok .both
  | some t =>
    if Text.isBlankText t then .ok .both
    else
      match ofName? (Text.lower (Text.strip t)) with
      | some selection => .ok selection
      | none =>
        .error (.argument ("Invalid accessor type '" ++ t ++ "'. Expected 'get', 'set' or 'both'.")
          "accessor_type" (some t))

namespace Query

/-- The checked arguments of a query. -/
structure Filter where
  typeName : String
  home : Option String := none
  memberName : Option String := none
  accessors : AccessorSelection := .both
deriving DecidableEq, Repr

/-- Check the arguments of a query in the order: type name, member name, accessor token. -/
def Filter.check (typeName home memberName accessor : Option String) :
    Except Failure Filter :=
  match typeName with
  | none => .error (.argument "type_name is required" "type_name" none)
  | some t =>
    if Text.isBlankText t then .error (.argument "type_name is required" "type_name" (some t))
    else
      match memberName with
      | some m =>
        if Text.isBlankText m then
          .error (.argument "member name must not be blank" "member_name" (some m))
        else (AccessorSelection.parse accessor).map fun a => ⟨t, home, some m, a⟩
      | none => (AccessorSelection.parse accessor).map fun a => ⟨t, home, none, a⟩

/-- Check the arguments of a request: the accessor token first, then the rest. An empty namespace
is the same as none. -/
def Filter.create (typeName home memberName accessor : Option String) :
    Except Failure Filter := do
  let selection ← AccessorSelection.parse accessor
  Filter.check typeName (home.filter (· ≠ "")) memberName (some selection.name)

end Query

end Concordance
