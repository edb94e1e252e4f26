import Concordance.Binding.Codebase

/-!
# Walking through a module

The steps of a walk through a syntax tree, in order: names, members and calls that are met, names
that are bound, scopes that are opened and closed. Which steps a tree has depends on the tree alone.
What they mean, in the scopes that are open when they are taken, is defined elsewhere.

## Main definitions

* `Step`: the steps
* `steps`, `stepsAll`: the steps of a tree and of trees one after the other
-/

namespace Concordance.Binding

open Syntax

/-! ### Steps -/

/-- How the first positional parameter of a function in a class body is bound. -/
inductive Receiver where
  /-- Like any other one. -/
  | plain
  /-- To the class. -/
  | classItself
  /-- To an instance of the class. -/
  | anInstance
deriving DecidableEq, Repr

/-- The parameters of a function: those with a name of their own, with their hints, and those for
what is left over. -/
structure Signature where
  receiver : Receiver
  parameters : List (String × Hint)
  leftOver : List String
deriving DecidableEq, Repr

/-- A step of a walk. -/
inductive Step where
  /-- A name is met. -/
  | name (line : Nat) (id : String) (use : Use)
  /-- A member is met, at the line where it ends; `updates` if it is changed in place. -/
  | member (position : Position) (line : Nat) (value : Designator) (attr : String) (use : Use)
      (updates : Bool)
  /-- A call is met, at the line where the callee ends. -/
  | call (line : Nat) (callee : Designator)
  /-- A value is bound to names. -/
  | assign (names : List String) (value : Designator)
  /-- A name is bound to something with a hint. -/
  | hinted (name : String) (hint : Hint) (value : Option Designator)
  /-- A name is bound to something that is not followed. -/
  | bindOther (name : String)
  | moduleImport (name target : String)
  | nameImport (name : String) (level : Nat) (source : Option String) (target : String)
  /-- A name is bound to an instance of an exception type. -/
  | caught (name : String) (type : Option Designator)
  /-- The name of a class is bound and its body opened. -/
  | openClass (name : String) (position : Position)
  /-- The parameters of a function are bound in its body, and its name around it. -/
  | openFunction (name : String) (signature : Signature)
  /-- A scope is opened in which some names are bound to something that is not followed. -/
  | openScope (names : List String)
  | closeClass
  | closeScope
deriving DecidableEq, Repr

/-! ### Parts of definitions -/

/-- The name and hint of a parameter. -/
def parameter? : Node → Option (String × Hint)
  | .parameter _ name none => some (name, .nothing)
  | .parameter _ name (some h) => some (name, .ofNode h)
  | _ => none

/-- The names of parameters for what is left over. -/
def leftOverNames : Node → List String
  | .parameters _ _ rest _ _ keywordRest _ =>
    (rest.toList ++ keywordRest.toList).filterMap parameterName?
  | _ => []

/-- All names of parameters. -/
def parameterNames (parameters : Node) : List String :=
  (namedParameters parameters).filterMap parameterName? ++ leftOverNames parameters

/-- How the first positional parameter of a function is bound in a class body. -/
def receiver (name : String) (parameters : Node) (decorators : List Node) : Receiver :=
  let names := decoratorNames decorators
  if (positionalParameters parameters).isEmpty || names.contains "staticmethod" then .plain
  else if names.contains "classmethod" || name = "__new__" then .classItself
  else .anInstance

/-- The signature of a function. -/
def signature (name : String) (parameters : Node) (decorators : List Node) : Signature :=
  { receiver := receiver name parameters decorators
    parameters := (namedParameters parameters).filterMap parameter?
    leftOver := leftOverNames parameters }

/-- The names among targets. -/
def targetNames (targets : List Node) : List String :=
  targets.filterMap fun t =>
    match t with
    | .name _ id _ => some id
    | _ => none

/-- What an import of a module binds. -/
def moduleImportStep (a : Alias) : Step :=
  .moduleImport (Outline.importedModule a).1 (Outline.importedModule a).2

/-- What an import of names binds, one of them. -/
def nameImportStep? (level : Nat) (source : Option String) (a : Alias) : Option Step :=
  if a.name = "*" then none else some (.nameImport (a.asName.getD a.name) level source a.name)

/-! ### Trees -/

mutual

/-- The steps of a tree. -/
def steps : Node → List Step
  | .name p id use => [.name p.line id use]
  | .constant .. => []
  | .member p value attr use =>
    steps value ++ [.member ⟨p.line, p.column⟩ p.lastLine (.ofNode value) attr use false]
  | .subscript _ value slice _ => steps value ++ steps slice
  | .call _ callee args keywords =>
    steps callee ++ stepsAll args ++ stepsAll keywords ++
      [.call callee.place.lastLine (.ofNode callee)]
  | .binary _ _ left right => steps left ++ steps right
  | .tuple _ items _ => stepsAll items
  | .dict _ keys values => stepsAll keys ++ stepsAll values
  | .await _ value => steps value
  | .named _ target value =>
    steps value ++ steps target ++ [.assign (targetNames [target]) (.ofNode value)]
  | .lambda _ parameters body =>
    stepsOfDefaults parameters ++ [.openScope (parameterNames parameters)] ++ steps body ++
      [.closeScope]
  | .comprehension _ _ elements generators =>
    stepsOfFirstIter generators ++ [.openScope []] ++ stepsOfGenerators true generators ++
      stepsAll elements ++ [.closeScope]
  | .keyword _ _ value => steps value
  | .generator target iter conditions => steps target ++ steps iter ++ stepsAll conditions
  | .parameters positionalOnly positional rest keywordOnly keywordDefaults keywordRest defaults =>
    stepsAll positionalOnly ++ stepsAll positional ++ stepsOption rest ++ stepsAll keywordOnly ++
      stepsAll keywordDefaults ++ stepsOption keywordRest ++ stepsAll defaults
  | .parameter _ _ hint => stepsOption hint
  | .matchAs _ pattern name => name.toList.map .bindOther ++ stepsOption pattern
  | .matchStar _ name => name.toList.map .bindOther
  | .matchMapping _ keys patterns rest =>
    rest.toList.map .bindOther ++ stepsAll keys ++ stepsAll patterns
  | .classDef p name bases keywords body decorators =>
    stepsAll decorators ++ stepsAll bases ++ stepsAll keywords ++
      [.openClass name ⟨p.line, p.column⟩] ++ stepsAll body ++ [.closeClass]
  | .functionDef _ _ name parameters body decorators returns =>
    stepsAll decorators ++ stepsOfDefaults parameters ++ stepsOfHints parameters ++
      stepsOption returns ++ [.openFunction name (signature name parameters decorators)] ++
      stepsAll body ++ [.closeScope]
  | .assign _ targets value =>
    steps value ++ stepsAll targets ++ [.assign (targetNames targets) (.ofNode value)]
  | .annAssign _ target hint value =>
    steps hint ++ stepsOption value ++ steps target ++
      (targetNames [target]).map fun id => .hinted id (.ofNode hint) (value.map Designator.ofNode)
  | .augAssign _ (.member p owner attr use) _ value =>
    steps owner ++ [.member ⟨p.line, p.column⟩ p.lastLine (.ofNode owner) attr use true] ++
      steps value
  | .augAssign _ target _ value => steps target ++ steps value
  | .importModules _ names => names.map moduleImportStep
  | .importFrom _ source names level => names.filterMap (nameImportStep? level source)
  | .outerNames .. => []
  | .branch _ test body orElse => steps test ++ stepsAll body ++ stepsAll orElse
  | .loop _ _ target iter body orElse =>
    steps target ++ steps iter ++ stepsAll body ++ stepsAll orElse
  | .guarded _ _ body handlers orElse final =>
    stepsAll body ++ stepsAll handlers ++ stepsAll orElse ++ stepsAll final
  | .within _ _ items body => stepsAll items ++ stepsAll body
  | .handler _ type name body =>
    stepsOption type ++ (name.toList.map fun id => .caught id (type.map Designator.ofNode)) ++
      stepsAll body
  | .withItem context target => steps context ++ stepsOption target
  | .matchCase pattern guard body => steps pattern ++ stepsOption guard ++ stepsAll body
  | .plain _ _ parts => stepsAll parts

/-- The steps of trees one after the other. -/
def stepsAll : List Node → List Step
  | [] => []
  | n :: rest => steps n ++ stepsAll rest

/-- The steps of a part that may be missing. -/
def stepsOption : Option Node → List Step
  | none => []
  | some n => steps n

/-- The steps of the defaults of parameters. -/
def stepsOfDefaults : Node → List Step
  | .parameters _ _ _ _ keywordDefaults _ defaults => stepsAll defaults ++ stepsAll keywordDefaults
  | _ => []

/-- The steps of the hints of parameters, those for what is left over last. -/
def stepsOfHints : Node → List Step
  | .parameters positionalOnly positional rest keywordOnly _ keywordRest _ =>
    stepsAll positionalOnly ++ stepsAll positional ++ stepsAll keywordOnly ++ stepsOption rest ++
      stepsOption keywordRest
  | _ => []

/-- The steps of what a comprehension first goes through, which stands outside its scope. -/
def stepsOfFirstIter : List Node → List Step
  | .generator _ iter _ :: _ => steps iter
  | _ => []

/-- The steps of the generators of a comprehension within its scope. -/
def stepsOfGenerators (first : Bool) : List Node → List Step
  | .generator target iter conditions :: rest =>
    (if first then [] else steps iter) ++ steps target ++ stepsAll conditions ++
      stepsOfGenerators false rest
  | _ => []

end

end Concordance.Binding
