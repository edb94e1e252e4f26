import Concordance.Binding.Codebase

/-!
# Resolution

What names and expressions denote. A name of a module is bound by the last of its sources that says
anything; a source may refer to names of other modules and to the hints and values of members, and
so on through cycles of every kind. A question that is asked again while it is being answered has
no answer along that path, so a chain of questions inside each other holds each of them once. The
answers for names of modules are kept, those for members are not.

Questions inside each other are counted by a depth. `Codebase.depth` exceeds the length of any chain
of different questions: between two questions about sources or members a chain can only go through
wildcard imports, from module to module. `Fault.tooDeep` says that a chain was longer than a depth
allows.

## Main definitions

* `Denotation`: what a name or expression denotes
* `Resolve`: work that may keep answers and may fail
* `Questions`: what is asked one level deeper
* `resolve`, `resolveHint`: designators and hints under a lookup of names
* `Codebase.questions`: all of it, up to a depth
* `Codebase.resolveBases`: the base classes of all classes
-/

namespace Concordance.Binding

/-! ### Bindings -/

/-- What a name or expression denotes. -/
inductive Denotation where
  /-- A declared class; `aliased` if it is reached through a variable. -/
  | classObject (c : ClassId) (aliased : Bool)
  | instanceOf (c : ClassId)
  | moduleNamed (name : String)
  /-- The bases of a class, as seen from a method of it. -/
  | basesOf (c : ClassId)
  /-- Anything else. It hides what the name is bound to further out. -/
  | other
deriving DecidableEq, Repr

namespace Denotation

/-- A binding as held by a variable. -/
def asValue : Denotation → Denotation
  | classObject c _ => classObject c true
  | b => b

/-- What a call of a binding denotes. -/
def called : Denotation → Option Denotation
  | classObject c _ => some (instanceOf c)
  | _ => none

/-- The class of a binding that has one. -/
def class? : Denotation → Option ClassId
  | classObject c _ => some c
  | instanceOf c => some c
  | basesOf c => some c
  | _ => none

/-- The class itself, where a binding is one under its own name. -/
def ownClass? : Denotation → Option ClassId
  | classObject c false => some c
  | _ => none

theorem asValue_asValue (b : Denotation) : b.asValue.asValue = b.asValue := by
  cases b <;> rfl

theorem ownClass?_asValue (b : Denotation) : b.asValue.ownClass? = none := by
  cases b <;> rfl

end Denotation

/-- The member found under a name on a binding, with the class that declares it. -/
def Codebase.memberOn? (c : Codebase) (b : Denotation) (attr : String) :
    Option (Symbol × ClassId) :=
  match b with
  | .classObject k _ => c.findMember? k attr false
  | .instanceOf k => c.findMember? k attr false
  | .basesOf k => c.findMember? k attr true
  | _ => none

/-! ### Work -/

/-- Why a resolution ends without an answer. -/
inductive Fault where
  /-- A hint is a text that cannot be read. -/
  | unreadable (why : Illegible)
  /-- Questions went deeper than the depth given. -/
  | tooDeep
deriving DecidableEq, Repr

/-- The failure that whoever asked is told of. -/
def Fault.failure : Fault → Failure
  | .unreadable why => why.failure
  | .tooDeep => .depth

/-- The answers kept for names of modules. -/
abbrev Cache := Table (Nat × String) (Option Denotation)

/-- Work that may keep answers and may fail; what was kept stays kept. -/
abbrev Resolve := ExceptT Fault (StateM Cache)

/-- The part of a member that its type is taken from. -/
inductive Aspect where
  /-- The hint on the result of a method. -/
  | result
  /-- The hint on a field or property, otherwise its first value. -/
  | content
deriving DecidableEq, Repr

/-- What is asked one level deeper. -/
structure Questions where
  /-- The binding of a name at the end of a module; none if it is never bound. -/
  exported : Nat → String → Resolve (Option Denotation)
  /-- The type of a member that a class declares. -/
  memberType : ClassId → String → Aspect → Resolve (Option Denotation)

/-- The binding of a name in a module that may not exist. -/
def Questions.exportedFrom (q : Questions) (m : Option Nat) (name : String) :
    Resolve (Option Denotation) :=
  match m with
  | some m => q.exported m name
  | none => pure none

/-- How names are looked up. -/
abbrev Lookup := String → Resolve (Option Denotation)

/-! ### Expressions -/

section

variable (c : Codebase) (q : Questions)

/-- What an import of a name from a module binds, for an importer in a project: the name in the
module, otherwise the module below it. -/
def importFrom (project : Option String) (target name : String) : Resolve Denotation := do
  match ← q.exportedFrom (c.findModule? target project) name with
  | some b => pure b
  | none =>
    let below := target ++ "." ++ name
    pure (if c.hasModule below then .moduleNamed below else .other)

/-- What a member of a binding denotes. Below a module a module comes before a name. -/
def memberOf (b : Denotation) (attr : String) : Resolve (Option Denotation) :=
  match b with
  | .moduleNamed name =>
    let below := name ++ "." ++ attr
    if c.hasModule below then pure (some (.moduleNamed below))
    else q.exportedFrom (c.findModule? name none) attr
  | _ =>
    match c.memberOn? b attr with
    | none => pure none
    | some (member, owner) =>
      match member.kind with
      | .type =>
        pure <| ((c.classDecl? owner).bind fun d => d.nested.find? attr).map fun n =>
          .classObject ⟨owner.moduleIndex, n.1⟩ false
      | .field => q.memberType owner attr .content
      | .property => q.memberType owner attr .content
      | .method => pure none

/-- What a member of something that may be unknown denotes. -/
def memberOfOption (b : Option Denotation) (attr : String) : Resolve (Option Denotation) :=
  match b with
  | some b => memberOf c q b attr
  | none => pure none

/-- The class that declares the method of a name on a binding. -/
def methodOwner? (b : Option Denotation) (attr : String) : Option ClassId :=
  (b.bind fun b => c.memberOn? b attr).bind fun found =>
    if found.1.kind = .method then some found.2 else none

/-- What an expression denotes, in the class `enclosing`; none if that is unknown. The names
`super` and `type` have their own meaning where they are not bound. -/
def resolve (lookup : Lookup) (enclosing : Option ClassId) :
    Designator → Resolve (Option Denotation)
  | .unknown => pure none
  | .name id => lookup id
  | .member value attr => do memberOfOption c q (← resolve lookup enclosing value) attr
  | .call (.name id) argument => do
    match ← lookup id with
    | some b => pure b.called
    | none =>
      if id = "super" then pure (enclosing.map .basesOf)
      else if id = "type" then
        match ← resolve lookup enclosing argument with
        | some (.instanceOf k) => pure (some (.classObject k false))
        | _ => pure none
      else pure none
  | .call (.member value attr) _ => do
    let receiver ← resolve lookup enclosing value
    match methodOwner? c receiver attr with
    | some owner => q.memberType owner attr .result
    | none => return (← memberOfOption c q receiver attr).bind Denotation.called
  | .call callee _ => do return (← resolve lookup enclosing callee).bind Denotation.called

/-- What a value with a hint denotes: an instance of the class that the hint names. -/
def resolveHint (lookup : Lookup) : Hint → Resolve (Option Denotation)
  | .nothing => pure none
  | .unreadable why => throw (.unreadable why)
  | .designator d => do return (← resolve c q lookup none d).bind Denotation.called
  | .either first second => do
    match ← resolveHint lookup first with
    | some b => pure (some b)
    | none => resolveHint lookup second
  | .typeOf h => do
    return ((← resolveHint lookup h).bind Denotation.class?).map fun k => .classObject k false

/-- What something with a hint, or else a value, denotes. -/
def resolveTyped (lookup : Lookup) (enclosing : Option ClassId) (hint : Hint)
    (value : Option Designator) : Resolve (Option Denotation) := do
  match ← resolveHint c q lookup hint with
  | some b => pure (some b)
  | none =>
    match value with
    | some d => resolve c q lookup enclosing d
    | none => pure none

/-! ### Names of modules -/

/-- What a source binds its name to, in a module. -/
def resolveSource (m : Nat) : Source → Resolve (Option Denotation)
  | .classStatement k => pure (some (.classObject k false))
  | .moduleImport name => pure (some (.moduleNamed name))
  | .nameImport target name => do return some (← importFrom c q (c.project? m) target name)
  | .value d => do return (← resolve c q (q.exported m) none d).map Denotation.asValue
  | .hinted h value => do
    return (← resolveTyped c q (q.exported m) none h value).map Denotation.asValue
  | .other => pure (some .other)

/-- What the first of the sources that says anything binds its name to. -/
def firstInformative (m : Nat) : List Source → Resolve Denotation
  | [] => pure .other
  | s :: rest => do
    match ← resolveSource c q m s with
    | none => firstInformative m rest
    | some .other => firstInformative m rest
    | some b => pure b

/-- What the first of some modules that binds a name binds it to. -/
def firstExport (m : Nat) (name : String) : List String → Resolve (Option Denotation)
  | [] => pure none
  | target :: rest => do
    match ← q.exportedFrom (c.findModule? target (c.project? m)) name with
    | some b => pure (some b)
    | none => firstExport m name rest

/-- The binding of a name at the end of a module. Its own sources count from the last one back;
without any, a public name may come from a module whose names are taken over. -/
def resolveExport (m : Nat) (name : String) : Resolve (Option Denotation) :=
  match (c.outline m).names.find? name with
  | some sources => some <$> firstInformative c q m sources.reverse
  | none =>
    if name.startsWith "_" then pure none
    else firstExport c q m name (c.outline m).wildcards

/-! ### Types of members -/

/-- The type of a member: from its hint if it has one, otherwise from its first value. -/
def resolveMemberType (owner : ClassId) (attr : String) (aspect : Aspect) :
    Resolve (Option Denotation) :=
  match c.classDecl? owner with
  | none => pure none
  | some d =>
    let lookup := q.exported owner.moduleIndex
    match aspect with
    | .result =>
      match d.returns.find? attr with
      | some h => resolveHint c q lookup (.ofNode h)
      | none => pure none
    | .content =>
      match d.annotations.find? attr with
      | some h => resolveHint c q lookup (.ofNode h)
      | none =>
        match d.values.find? attr with
        | some v => resolve c q lookup none (.ofNode v)
        | none => pure none

end

/-! ### Questions inside each other -/

/-- The questions that are being answered. -/
structure Open where
  exports : List (Nat × String) := []
  members : List (ClassId × String) := []

namespace Codebase

/-- Answer a question about a name of a module: from what is kept, else not at all if it is being
answered, else by `answer`, which is then kept. -/
def askExport (asked : Open) (m : Nat) (name : String) (answer : Resolve (Option Denotation)) :
    Resolve (Option Denotation) := do
  match (← get).find? (m, name) with
  | some kept => pure kept
  | none =>
    if (m, name) ∈ asked.exports then pure none
    else
      let found ← answer
      modify fun cache => cache.insert (m, name) found
      pure found

/-- The questions that can be asked while others are being answered, up to a depth. -/
def questions (c : Codebase) : (depth : Nat) → Open → Questions
  | 0, _ => ⟨fun _ _ => throw .tooDeep, fun _ _ _ => throw .tooDeep⟩
  | depth + 1, asked =>
    { exported := fun m name =>
        askExport asked m name <|
          resolveExport c (c.questions depth { asked with exports := (m, name) :: asked.exports })
            m name
      memberType := fun owner attr aspect =>
        if (owner, attr) ∈ asked.members then pure none
        else
          resolveMemberType c
            (c.questions depth { asked with members := (owner, attr) :: asked.members })
            owner attr aspect }

/-- The names under which a class declares members. -/
def memberNames (k : ClassDecl) : List String :=
  k.methods.map Prod.fst ++ k.properties.map Prod.fst ++ k.fields.map Prod.fst ++
    k.nested.map Prod.fst

/-- The names with sources of their own, by module. -/
def ownNames (c : Codebase) : List (Nat × String) :=
  c.outlines.zipIdx.flatMap fun (o, m) => o.names.map fun e => (m, e.1)

/-- The names of declared members, by class. -/
def declaredNames (c : Codebase) : List (ClassId × String) :=
  c.modules.zipIdx.flatMap fun (d, m) =>
    d.classes.flatMap fun k => (memberNames k).map fun attr => (⟨m, k.position⟩, attr)

/-- The number of questions that are more than a way through wildcard imports. -/
def steps (c : Codebase) : Nat := c.ownNames.length + c.declaredNames.length

/-- A depth that no chain of different questions reaches. -/
def depth (c : Codebase) : Nat := (c.steps + 1) * (c.modules.length + 1) + 1

/-- The questions that can be asked when none is being answered. -/
def ask (c : Codebase) : Questions := c.questions c.depth {}

/-! ### Base classes -/

/-- Find out which class one base expression of a class denotes, and add it. A class is no base of
itself. -/
def resolveBase (c : Codebase) (k : ClassId) (base : Syntax.Node) : Resolve Codebase := do
  let base := match base with
    | .subscript _ type _ _ => type
    | n => n
  match ← Binding.resolve c c.ask (c.ask.exported k.moduleIndex) none (.ofNode base) with
  | some (.classObject b _) => pure (if b = k then c else c.addBase k b)
  | _ => pure c

/-- Find the base classes of all classes, module by module. What is found for one class counts in
what follows. -/
def resolveBases (c : Codebase) : Resolve Codebase :=
  c.classIds.foldlM (fun c k =>
    match c.classDecl? k with
    | some d => d.baseExprs.foldlM (fun c base => c.resolveBase k base) c
    | none => pure c) c

end Codebase

end Concordance.Binding
