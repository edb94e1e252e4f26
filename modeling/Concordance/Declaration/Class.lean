import Concordance.Declaration.Module
import Concordance.Symbol
import Concordance.Table

/-!
# Declared classes

What a class statement declares: methods, properties with their accessors, fields assigned in its
body or on the receiver in its methods, and the classes directly within it. A name is one member
only: functions come before fields, and the first declaration of a name stays. Beside the symbols,
the hints on fields, properties and results and the first values of fields are kept, from which
the types of members are inferred later.

## Main definitions

* `decoratorName`, `decoratorNames`: how a function is decorated
* `Members`: the members of a class while they are collected
* `ClassDecl`: a declared class
* `Extracted`, `extractClass`: a class statement with everything declared within it
-/

namespace Concordance

open Syntax

/-! ### Positions -/

/-- Where a statement or expression starts. -/
structure Position where
  line : Nat
  column : Nat
deriving DecidableEq, Repr

/-- Where a node starts. -/
def Syntax.Node.position (n : Node) : Position := ⟨n.place.line, n.place.column⟩

/-- The place at which a field is declared by an assignment to a receiver. -/
structure FieldSite where
  position : Position
  attr : String
deriving DecidableEq, Repr

/-- Order of sites: by position, then by name. -/
def FieldSite.le (a b : FieldSite) : Bool :=
  let x := a.position
  let y := b.position
  x.line < y.line || (x.line == y.line &&
    (x.column < y.column || (x.column == y.column && decide (a.attr ≤ b.attr))))

/-! ### Decorators -/

/-- The name in front of the last dot of a decorator, and its last name. A call counts as what it
calls. -/
def decoratorName (n : Node) : Option String × Option String :=
  let callee := match n with
    | .call _ f _ _ => f
    | n => n
  match callee with
  | .name _ id _ => (none, some id)
  | .member _ (.name _ base _) attr _ => (some base, some attr)
  | .member _ _ attr _ => (none, some attr)
  | _ => (none, none)

/-- The last names of decorators. -/
def decoratorNames (decorators : List Node) : List String :=
  (decorators.filterMap fun d => (decoratorName d).2).filter (· ≠ "")

/-! ### Parameters -/

/-- The positional parameters of a function. -/
def positionalParameters : Node → List Node
  | .parameters po p .. => po ++ p
  | _ => []

/-- The parameters of a function that have a name of their own, those for what is left over
apart. -/
def namedParameters : Node → List Node
  | .parameters po p _ ko .. => po ++ p ++ ko
  | _ => []

/-- The name of a parameter. -/
def parameterName? : Node → Option String
  | .parameter _ n _ => some n
  | _ => none

/-- The hints of parameters by name. -/
def parameterHints (ps : List Node) : Table String Node :=
  ps.foldl (fun t p =>
    match p with
    | .parameter _ n (some h) => t.insert n h
    | _ => t) []

/-- The name of the receiver of a method: its first positional parameter, unless a decorator says
that it has none. -/
def receiverName? (parameters : Node) (decorators : List Node) : Option String :=
  let names := decoratorNames decorators
  if names.contains "staticmethod" || names.contains "classmethod" then none
  else (positionalParameters parameters).head?.bind parameterName?

/-! ### Collecting members -/

/-- What names the symbols of a class: the module, the qualified name, and the id of the class. -/
structure ClassName where
  home : String
  name : String
  container : Option String
  id : String

/-- The qualified name of a class. -/
def ClassName.qualified (c : ClassName) : String := qualify c.container c.name

/-- The name of a class in a module. -/
def ClassName.of (m : SourceModule) (name : String) (container : Option String) : ClassName :=
  ⟨m.name, name, container, m.project ++ "/" ++ m.name ++ ":" ++ qualify container name⟩

/-- The label of a member; `part` is what its id ends with. -/
def ClassName.memberLabel (c : ClassName) (name part : String) (role : Option String) : Label :=
  { id := c.id ++ "." ++ name ++ "#" ++ part
    name, home := c.home, container := some c.qualified
    displayName := defaultDisplayName c.home (some c.qualified) name role }

/-- A method of a class. -/
def ClassName.method (c : ClassName) (name : String) : Symbol :=
  .method (c.memberLabel name "method" none) none

/-- The accessor of a property. -/
def ClassName.accessor (c : ClassName) (name role : String) : Symbol :=
  .method (c.memberLabel name role (some role)) (some role)

/-- A field of a class. -/
def ClassName.field (c : ClassName) (name : String) : Symbol :=
  .field (c.memberLabel name "field" none)

/-- A property of a class with the accessors it has. -/
def ClassName.property (c : ClassName) (name : String) (getter setter : Bool) : Symbol :=
  .property (c.memberLabel name "property" none)
    (if getter then some (c.accessor name "get") else none)
    (if setter then some (c.accessor name "set") else none)

/-- The members of a class while they are collected: properties and the names that have a getter
or a setter, methods and fields, and the hints and values that go with them. -/
structure Members where
  methods : Table String Symbol := []
  properties : List String := []
  getters : List String := []
  setters : List String := []
  fields : Table String Symbol := []
  annotations : Table String Node := []
  values : Table String Node := []
  returns : Table String Node := []

namespace Members

/-- Note a hint or value unless there is one. -/
def note (name : String) (n : Option Node) (t : Table String Node) : Table String Node :=
  match n with
  | some n => t.insertNew name n
  | none => t

/-- Add a name to a list that does not have it. -/
def addName (name : String) (names : List String) : List String :=
  if names.contains name then names else names ++ [name]

/-- What the decorators of a function make of it. -/
inductive Role where
  | getter
  | setter
  | deleter
  | method
deriving DecidableEq

/-- The role of a function, which the first decorator that gives one decides. -/
def role (name : String) : List Node → Role
  | [] => .method
  | d :: rest =>
    let (base, attr) := decoratorName d
    if attr = some "property" || attr = some "cached_property" then .getter
    else if base = some name && attr = some "setter" then .setter
    else if base = some name && attr = some "deleter" then .deleter
    else role name rest

/-- Collect a function of the class body. -/
def addFunction (c : ClassName) (ms : Members) (name : String) (decorators : List Node)
    (result : Option Node) : Members :=
  match role name decorators with
  | .getter =>
    { ms with
      getters := addName name ms.getters, properties := addName name ms.properties
      annotations := note name result ms.annotations }
  | .setter =>
    { ms with setters := addName name ms.setters, properties := addName name ms.properties }
  | .deleter => ms
  | .method =>
    { ms with
      methods := ms.methods.insertNew name (c.method name)
      returns := note name result ms.returns }

/-- Collect a field with a hint and a value, unless a function has its name; whether it is a new
field. -/
def addField (c : ClassName) (ms : Members) (name : String) (hint value : Option Node) :
    Members × Bool :=
  if ms.methods.has name || ms.properties.contains name then (ms, false)
  else
    let noted := { ms with
      annotations := note name hint ms.annotations, values := note name value ms.values }
    if ms.fields.has name then (noted, false)
    else ({ noted with fields := noted.fields.insertNew name (c.field name) }, true)

/-- The names that a target stores to, level by level. -/
def storedNames (target : Node) : List String :=
  target.breadthFirst.filterMap fun n =>
    match n with
    | .name _ id .store => some id
    | _ => none

/-- Collect the fields of a statement of the class body. -/
def addClassField (c : ClassName) (ms : Members) (stmt : Node) : Members :=
  match stmt with
  | .assign _ targets value =>
    let value := match targets with
      | [.name ..] => some value
      | _ => none
    (targets.flatMap storedNames).foldl (fun ms id => (ms.addField c id none value).1) ms
  | .annAssign _ (.name _ id _) hint value => (ms.addField c id (some hint) value).1
  | _ => ms

/-- An assignment: its targets, its hint and the value that a target alone is given. -/
def assignmentOf? : Node → Option (List Node × Option Node × Option Node)
  | .assign _ [t] value => some ([t], none, some value)
  | .assign _ targets _ => some (targets, none, none)
  | .annAssign _ t hint value => some ([t], some hint, value)
  | .augAssign _ t _ _ => some ([t], none, none)
  | _ => none

/-- The parts of a target that are members of the receiver; each with whether it is the whole
target. -/
def receiverTargets (receiver : String) (target : Node) : List (Node × String × Bool) :=
  let member := fun (whole : Bool) (n : Node) =>
    match n with
    | .member _ (.name _ id _) attr .store =>
      if id = receiver then some (n, attr, whole) else none
    | _ => none
  match target.breadthFirst with
  | [] => []
  | whole :: within => (member true whole).toList ++ within.filterMap (member false)

/-- Collect the fields that one assignment in a method declares, with their sites. -/
def addAssignment (c : ClassName) (receiver : String) (hints : Table String Node)
    (acc : Members × List FieldSite) (n : Node) : Members × List FieldSite :=
  match assignmentOf? n with
  | none => acc
  | some (targets, hint, value) =>
    -- a parameter with a hint passes it on to the field it is assigned to
    let hint := match hint, value with
      | none, some (.name _ id _) => hints.find? id
      | hint, _ => hint
    (targets.flatMap (receiverTargets receiver)).foldl (fun (ms, sites) (n, attr, whole) =>
      let (ms, new) :=
        ms.addField c attr (if whole then hint else none) (if whole then value else none)
      (ms, if new then sites ++ [⟨n.position, attr⟩] else sites)) acc

/-- Collect the fields that a method declares on its receiver, with their sites. -/
def addInstanceFields (c : ClassName) (acc : Members × List FieldSite) (stmt : Node) :
    Members × List FieldSite :=
  match stmt with
  | .functionDef _ _ _ parameters _ decorators _ =>
    match receiverName? parameters decorators with
    | none => acc
    | some receiver =>
      let hints := parameterHints (namedParameters parameters)
      stmt.breadthFirst.foldl (addAssignment c receiver hints) acc
  | _ => acc

/-- Collect everything that the body of a class declares, nested classes apart: its functions,
then the fields of the body, then those of the methods. -/
def ofBody (c : ClassName) (body : List Node) : Members × List FieldSite :=
  let functions := body.foldl (fun (ms : Members) stmt =>
    match stmt with
    | .functionDef _ _ name _ _ decorators result => ms.addFunction c name decorators result
    | _ => ms) {}
  body.foldl (addInstanceFields c) (body.foldl (addClassField c) functions, [])

end Members

/-! ### Declared classes -/

/-- A declared class. The base expressions are those of its statement; what they denote is found
out when names are bound. -/
structure ClassDecl where
  position : Position
  symbol : Symbol
  baseExprs : List Node
  methods : Table String Symbol
  properties : Table String Symbol
  fields : Table String Symbol
  /-- The classes directly within it: the last one of each name. -/
  nested : Table String (Position × Symbol)
  annotations : Table String Node
  values : Table String Node
  returns : Table String Node

/-- The member that a class itself declares under a name. -/
def ClassDecl.ownMember? (d : ClassDecl) (name : String) : Option Symbol :=
  (d.methods.find? name).or <| (d.properties.find? name).or <| (d.fields.find? name).or <|
    (d.nested.find? name).map Prod.snd

/-- A class statement as extracted: the class itself, every class within it and itself in the
order in which they are complete, and the sites of the fields of them all. -/
structure Extracted where
  own : ClassDecl
  all : List ClassDecl
  sites : List FieldSite

/-- Put a class together from its members and the classes within it. -/
def Extracted.of (c : ClassName) (position : Position) (bases body : List Node)
    (nested : List Extracted) : Extracted :=
  let (ms, sites) := Members.ofBody c body
  let properties : Table String Symbol := ms.properties.map fun name =>
    (name, c.property name (ms.getters.contains name) (ms.setters.contains name))
  let members := ms.methods.entries ++ properties.entries ++ ms.fields.entries ++
    nested.map fun x => x.own.symbol
  let label : Label :=
    ⟨c.id, c.name, c.home, c.container, defaultDisplayName c.home c.container c.name none⟩
  let own : ClassDecl :=
    { position, baseExprs := bases, methods := ms.methods, properties, fields := ms.fields
      symbol := .type label members
      nested := nested.foldl (fun t x =>
        t.insert x.own.symbol.name (x.own.position, x.own.symbol)) []
      annotations := ms.annotations, values := ms.values, returns := ms.returns }
  ⟨own, nested.flatMap Extracted.all ++ [own], nested.flatMap Extracted.sites ++ sites⟩

mutual

/-- Extract a class statement of a module. -/
def extractClass (m : SourceModule) (container : Option String) : Node → Option Extracted
  | .classDef p name bases _ body _ =>
    let c := ClassName.of m name container
    some (.of c ⟨p.line, p.column⟩ bases body (extractClasses m (some c.qualified) body))
  | _ => none

/-- Extract the class statements directly in a body. -/
def extractClasses (m : SourceModule) (container : Option String) : List Node → List Extracted
  | [] => []
  | n :: rest => (extractClass m container n).toList ++ extractClasses m container rest

end

theorem extractClasses_eq (m : SourceModule) (container : Option String) (nodes : List Node) :
    extractClasses m container nodes = nodes.filterMap (extractClass m container) := by
  induction nodes with
  | nil => rw [extractClasses, List.filterMap_nil]
  | cons n rest ih =>
    rw [extractClasses, ih, List.filterMap_cons]
    cases extractClass m container n <;> rfl

theorem mem_extractClasses {m : SourceModule} {container : Option String} {nodes : List Node}
    {x : Extracted} :
    x ∈ extractClasses m container nodes ↔ ∃ n ∈ nodes, extractClass m container n = some x := by
  rw [extractClasses_eq, List.mem_filterMap]

/-- A class statement is put together from those directly in its body: what is known of it with
regard to them is known of all. -/
@[elab_as_elim] theorem extractClass_induction {m : SourceModule}
    {motive : Option String → Node → Extracted → Prop}
    (h : ∀ container p name bases keywords body decorators,
      (∀ n ∈ body, ∀ x,
        extractClass m (some (ClassName.of m name container).qualified) n = some x →
          motive (some (ClassName.of m name container).qualified) n x) →
      motive container (.classDef p name bases keywords body decorators)
        (.of (.of m name container) ⟨p.line, p.column⟩ bases body
          (extractClasses m (some (ClassName.of m name container).qualified) body)))
    (n : Node) (container : Option String) (x : Extracted)
    (hx : extractClass m container n = some x) : motive container n x := by
  cases n with
  | classDef p name bases keywords body decorators =>
    rw [extractClass] at hx
    obtain rfl := Option.some.inj hx
    exact h container p name bases keywords body decorators fun n _ =>
      extractClass_induction h n _
  | _ => simp [extractClass] at hx
termination_by sizeOf n

/-! ### Modules -/

/-- Everything that a module declares: the classes of the module level by name, the last one of
each name, all classes in the order in which they are complete, and the sites of fields. -/
structure ModuleDecls where
  source : SourceModule
  topLevel : Table String (Position × Symbol)
  classes : List ClassDecl
  sites : List FieldSite

/-- Extract what a module declares. Classes within functions are local and not declared. -/
def extractModule (m : SourceModule) : ModuleDecls :=
  let found := (moduleStatements m.body).filterMap (extractClass m none)
  { source := m
    topLevel := found.foldl (fun t x =>
      t.insert x.own.symbol.name (x.own.position, x.own.symbol)) []
    classes := found.flatMap Extracted.all
    sites := found.flatMap Extracted.sites }

/-- The class whose statement starts at a position. -/
def ModuleDecls.classAt? (d : ModuleDecls) (p : Position) : Option ClassDecl :=
  d.classes.find? fun c => c.position = p

/-- The types that a module declares at its level. -/
def ModuleDecls.typeSymbols (d : ModuleDecls) : List Symbol :=
  d.topLevel.map fun e => e.2.2

end Concordance
