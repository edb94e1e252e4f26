import Concordance.Cancellation
import Concordance.Graph
import Concordance.Query.Filter

/-!
# Resolving names to symbols

A type name is looked up in every project without regard to case; what is found and is a type
counts, in project order, the first symbol of each id. Members are then chosen by exact name and
kind, and for a property its accessors.

## Main definitions

* `Query.Lookup`: a resolver with a bound on the projects looked at together
* `Query.resolveTypes`, `Query.resolveMembers`
-/

namespace Concordance.Query

/-- How many projects may be looked at together. Answers do not depend on it. -/
structure Lookup where
  workers : Int
  workers_pos : 0 < workers

/-- A bound on the projects looked at together has to be positive. -/
def Lookup.ofWorkers (n : Int) : Except Failure Lookup :=
  if h : 0 < n then .ok ⟨n, h⟩
  else .error (.value ("max_workers must be positive, got " ++ toString n))

/-- The types of a name that a project declares. -/
def typesIn (p : Project) (typeName : String) : List Symbol :=
  (p.findDeclarations typeName true).filter fun s => s.kind = .type

/-- The types of a name in every project, one look at the meter for each. -/
def typesOfProjects {σ : Type} (typeName : String) : List Project → Metered σ (List Symbol)
  | [] => pure []
  | p :: rest => do
    checkpoint
    let found := typesIn p typeName
    let others ← typesOfProjects typeName rest
    pure (found ++ others)

/-- The distinct types named `typeName`, in project order. A namespace that is not empty has to be
that of the type. -/
def resolveTypes {σ : Type} (g : Graph) (typeName : String) (home : Option String) :
    Metered σ (List Symbol) := do
  if Text.isBlankText typeName then
    throw (.argument "type_name is required" "type_name" none)
  checkpoint
  let types ← typesOfProjects typeName g.projects
  match home with
  | some h =>
    if h = "" then pure (Symbol.distinct types)
    else pure (Symbol.distinct (types.filter fun s => s.home = h))
  | none => pure (Symbol.distinct types)

/-- A kind of member, from its name. -/
def memberKind (name : String) : Except Failure MemberKind :=
  match MemberKind.ofName? name with
  | some k => .ok k
  | none => .error (.argument ("Unsupported member kind '" ++ name ++ "'") "kind" (some name))

/-- The members that one type contributes. -/
def membersOf (kind : MemberKind) (memberName : String) (selection : AccessorSelection)
    (type : Symbol) : Except Failure (List Symbol) := do
  let members ← type.membersNamed memberName (some kind.toSymbolKind)
  match kind with
  | .property => return (← members.mapM fun m => m.accessors (some selection)).flatten
  | _ => return members

/-- The members of this kind and name, over all the types: for properties the accessors that the
token selects, otherwise the members themselves. The first of each id counts. -/
def resolveMembers (types : List Symbol) (kind : MemberKind) (memberName : Option String)
    (accessor : Option String) : Except Failure (List Symbol) := do
  match memberName with
  | some m =>
    if Text.isBlankText m then
      throw (.argument ("A " ++ kind.name ++ " name is required") "member_name" (some m))
    let selection ← if kind = .property then AccessorSelection.parse accessor else pure .both
    let found ← types.mapM (membersOf kind m selection)
    return Symbol.distinct found.flatten
  | none => throw (.argument ("A " ++ kind.name ++ " name is required") "member_name" none)

end Concordance.Query
