import Concordance.Json.Value
import Concordance.Query.Filter
import Concordance.Graph

/-!
# Requests

What can be asked of the service, and the values that answer it. There is one request for the
projects, one for loading the workspace again, and one for the references to types or to members of
a kind.

## Main definitions

* `Request`: the requests
* `Request.ofCall?`: the request that a name and arguments stand for
* `Request.title`: how a request is told
* `rowValue`: a row of an answer
-/

namespace Concordance.Service

/-- What the references are asked of: a type or a member of types, by its name, with the accessors
that are meant as they were given. -/
structure Target where
  kind : Option MemberKind := none
  typeName : Option String
  home : Option String := none
  memberName : Option String := none
  accessors : Option String := none
deriving DecidableEq, Repr

/-- A request. -/
inductive Request where
  | projects
  | refresh
  | references (target : Target)
deriving DecidableEq, Repr

/-- What is asked of, in the name of a request. -/
def kindTitle : Option MemberKind → String
  | none => "symbol"
  | some k => k.name

/-- The name of a request. -/
def Request.name : Request → String
  | projects => "list_projects"
  | refresh => "refresh"
  | references t => "find_" ++ kindTitle t.kind ++ "_references"

/-- A text among the arguments of a call. -/
def argument? (arguments : Json.Value) (name : String) : Option String :=
  match arguments.field? name with
  | some (.string s) => some s
  | _ => none

/-- What the arguments of a call name, with members of a kind. -/
def Target.ofArguments (kind : Option MemberKind) (arguments : Json.Value) : Target :=
  { kind, typeName := argument? arguments "type_name", home := argument? arguments "namespace"
    memberName := kind.bind fun k => argument? arguments (k.name ++ "_name")
    accessors := if kind = some .property then argument? arguments "accessor_type" else none }

/-- The requests that a name can stand for, given the arguments. -/
def Request.all (arguments : Json.Value) : List Request :=
  [projects, refresh] ++
    [none, some .property, some .method, some .field].map fun kind =>
      references (.ofArguments kind arguments)

/-- The request that a name and arguments stand for. -/
def Request.ofCall? (name : String) (arguments : Json.Value) : Option Request :=
  (Request.all arguments).find? fun r => r.name = name

/-- A text that may be missing, as it is told. -/
def toldText (s : Option String) : String := s.getD "None"

/-- How a request is told. -/
def Request.title (r : Request) : String :=
  match r with
  | references t =>
    let member :=
      match t.kind with
      | none => ""
      | some _ => "." ++ toldText t.memberName
    r.name ++ "(" ++ toldText t.typeName ++ member ++ ")"
  | r => r.name

/-- The name of the column that holds what is referred to. -/
def symbolColumn : Option MemberKind → String
  | none => "ReferencedSymbol"
  | some .property => "Accessor"
  | some .method => "Method"
  | some .field => "Field"

/-- A row of an answer. -/
def rowValue (column : String) (r : Row) : Json.Value :=
  .object [(column, .string r.displayName), ("Location", .string r.path), ("Line", .int r.line)]

/-- A project in an answer. -/
def projectValue (p : Project) : Json.Value :=
  .object [("ProjectName", p.name), ("Kind", (p.kind.map Json.Value.string).getD .null)]

/-- The checked arguments of a target. -/
def Target.filter (t : Target) : Except Failure Query.Filter :=
  Query.Filter.create t.typeName t.home t.memberName t.accessors

end Concordance.Service
