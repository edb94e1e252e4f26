import Concordance.Binding.Resolution
import Concordance.Binding.Walkthrough

/-!
# References

The lines on which the declared symbols are referred to, found in one walk through a module with
lexical scopes. What the scopes do not bind is looked up among the names of the module. A class is
referred to by its own name only, not through a variable; a call of a class also refers to its
`__init__`; the assignment that declares a field is no reference to it.

## Main definitions

* `Scope`, `Walk`: the scopes that are open and what has been found
* `perform`: the meaning of a step
* `references`: the references of a module, in the order in which they are met
-/

namespace Concordance.Binding

open Syntax

/-! ### Scopes -/

/-- The scopes within modules. -/
inductive ScopeKind where
  | classBody
  | function
deriving DecidableEq, Repr

/-- A scope with the names bound in it so far. -/
structure Scope where
  kind : ScopeKind
  bindings : Table String Denotation := []

/-- How far a walk has come: the open scopes, innermost first, the classes around, innermost first,
none for a class that is not declared, and the references found, last first. -/
structure Walk where
  scopes : List Scope := []
  classes : List (Option ClassId) := []
  found : List (String × Nat) := []

/-- Look a name up in functions; class bodies are not seen from within them. -/
def findOutside (name : String) : List Scope → Option Denotation
  | [] => none
  | s :: rest =>
    match s.kind with
    | .classBody => findOutside name rest
    | .function => (s.bindings.find? name).or (findOutside name rest)

/-- What a name is bound to in the open scopes. -/
def findInScopes (name : String) : List Scope → Option Denotation
  | [] => none
  | s :: rest => (s.bindings.find? name).or (findOutside name rest)

namespace Walk

/-- The class that is innermost, if it is a declared one. -/
def enclosing (w : Walk) : Option ClassId := w.classes.head?.bind fun k => k

/-- Bind a name in the innermost scope. At the level of the module nothing is bound: its names are
known already. -/
def bind (name : String) (b : Option Denotation) (w : Walk) : Walk :=
  match w.scopes with
  | [] => w
  | s :: rest =>
    { w with scopes := { s with bindings := s.bindings.insert name (b.getD .other) } :: rest }

/-- Note a reference. -/
def record (s : Symbol) (line : Nat) (w : Walk) : Walk :=
  { w with found := (s.id, line) :: w.found }

/-- Open a scope. -/
def openScope (s : Scope) (w : Walk) : Walk := { w with scopes := s :: w.scopes }

/-- Close the innermost scope. -/
def closeScope (w : Walk) : Walk := { w with scopes := w.scopes.tail }

/-- Whether the innermost scope is the body of a class. -/
def inClassBody (w : Walk) : Bool :=
  match w.scopes with
  | s :: _ => s.kind = .classBody
  | [] => false

end Walk

/-! ### Steps -/

section

variable (c : Codebase) (q : Questions) (m : Nat)

/-- Look a name up in a walk through the module `m`. -/
def lookupIn (w : Walk) : Lookup := fun name =>
  match findInScopes name w.scopes with
  | some b => pure (some b)
  | none => q.exported m name

/-- What an expression denotes where a walk stands. -/
def resolveIn (w : Walk) (d : Designator) : Resolve (Option Denotation) :=
  resolve c q (lookupIn q m w) w.enclosing d

/-- Note a reference to a class. -/
def recordClass (k : Option ClassId) (line : Nat) (w : Walk) : Walk :=
  match k.bind c.classSymbol? with
  | some s => w.record s line
  | none => w

/-- The accessors of a property that an occurrence uses. -/
def usedAccessors (p : Symbol) (use : Use) (updates : Bool) : List Symbol :=
  match use with
  | .load => p.getter.toList
  | .store => (if updates then p.getter.toList else []) ++ p.setter.toList
  | .delete => []

/-- Whether a member at a position declares a field of the module. -/
def isFieldSite (position : Position) (attr : String) : Bool :=
  match c.modules[m]? with
  | some d => d.sites.contains ⟨position, attr⟩
  | none => false

/-- Note what a member refers to that was found in a class. -/
def recordMember (s : Symbol) (position : Position) (line : Nat) (attr : String) (use : Use)
    (updates : Bool) (w : Walk) : Walk :=
  match s.kind with
  | .property => (usedAccessors s use updates).foldl (fun w a => w.record a line) w
  | .field => if isFieldSite c m position attr then w else w.record s line
  | _ => w.record s line

/-- Meet a member. -/
def meetMember (w : Walk) (position : Position) (line : Nat) (value : Designator) (attr : String)
    (use : Use) (updates : Bool) : Resolve Walk := do
  match ← resolveIn c q m w value with
  | none => pure w
  | some b =>
    match c.memberOn? b attr with
    | some (s, _) => pure (recordMember c m s position line attr use updates w)
    | none =>
      match b, use with
      | .moduleNamed _, .load =>
        return recordClass c ((← memberOf c q b attr).bind Denotation.ownClass?) line w
      | _, _ => pure w

/-- Meet a call, once its parts have been met. -/
def meetCall (w : Walk) (line : Nat) (callee : Designator) : Resolve Walk := do
  match ← resolveIn c q m w callee with
  | some (.classObject k _) =>
    match c.findMember? k "__init__" false with
    | some (s, _) => pure (if s.kind = .method then w.record s line else w)
    | none => pure w
  | _ => pure w

/-- What the parameters of a function are bound to, seen from where it is defined. -/
def bindParameters (w : Walk) (f : Signature) : Resolve (Table String Denotation) := do
  let asReceiver := w.inClassBody && decide (f.receiver ≠ .plain)
  let receiver : Denotation :=
    match w.enclosing with
    | none => .other
    | some k => if f.receiver = .classItself then .classObject k true else .instanceOf k
  let start : Table String Denotation :=
    if asReceiver then (f.parameters.take 1).map fun p => (p.1, receiver) else []
  let named ← (f.parameters.drop (if asReceiver then 1 else 0)).foldlM (fun t p => do
    let b ← resolveHint c q (lookupIn q m w) p.2
    pure (t.insert p.1 ((b.map Denotation.asValue).getD .other))) start
  pure (f.leftOver.foldl (fun t name => t.insert name .other) named)

/-- The class of the module `m` whose statement stands at a position. -/
def declaredAt? (position : Position) : Option ClassId :=
  (c.classDecl? ⟨m, position⟩).map fun _ => ⟨m, position⟩

/-- What an import of a name binds in a scope. -/
def importedName (level : Nat) (source : Option String) (target : String) : Resolve Denotation :=
  match c.modules[m]? with
  | none => pure .other
  | some d =>
    match Outline.importTarget? d.source level source with
    | some t => importFrom c q (some d.source.project) t target
    | none => pure .other

/-- The meaning of a step. -/
def perform (w : Walk) : Step → Resolve Walk
  | .name line id .load => do
    return recordClass c ((← lookupIn q m w id).bind Denotation.ownClass?) line w
  | .name _ id _ => pure (w.bind id none)
  | .member position line value attr use updates =>
    meetMember c q m w position line value attr use updates
  | .call line callee => meetCall c q m w line callee
  | .assign names value => do
    let b := (← resolveIn c q m w value).map Denotation.asValue
    pure (names.foldl (fun w name => w.bind name b) w)
  | .hinted name hint value => do
    let b ← resolveTyped c q (lookupIn q m w) w.enclosing hint value
    pure (w.bind name (b.map Denotation.asValue))
  | .bindOther name => pure (w.bind name none)
  | .moduleImport name target => pure (w.bind name (some (.moduleNamed target)))
  | .nameImport name level source target =>
    if w.scopes.isEmpty then pure w
    else return w.bind name (some (← importedName c q m level source target))
  | .caught name type => do
    let b ← match type with
      | some d => resolveIn c q m w d
      | none => pure none
    pure (w.bind name (b.bind Denotation.called))
  | .openClass name position =>
    let k := declaredAt? c m position
    let bound := w.bind name (k.map fun k => .classObject k false)
    pure { bound.openScope ⟨.classBody, []⟩ with classes := k :: w.classes }
  | .openFunction name f => do
    let parameters ← bindParameters c q m w f
    pure ((w.bind name none).openScope ⟨.function, parameters⟩)
  | .openScope names =>
    pure (w.openScope ⟨.function, names.foldl (fun t name => t.insert name .other) []⟩)
  | .closeClass => pure { w.closeScope with classes := w.classes.tail }
  | .closeScope => pure w.closeScope

end

/-! ### Modules -/

/-- The references of a module: ids of symbols with lines, in the order in which they are met. -/
def references (c : Codebase) (m : Nat) : Resolve (List (String × Nat)) := do
  let body := ((c.modules[m]?).map fun d => d.source.body).getD []
  let w ← (stepsAll body).foldlM (perform c c.ask m) {}
  pure w.found.reverse

/-- References by the symbols they refer to, each with its lines in order. -/
def groupReferences (found : List (String × Nat)) : Table String (List Nat) :=
  found.foldl (fun t (id, line) => t.alter id fun before => before.getD [] ++ [line]) []

end Concordance.Binding
