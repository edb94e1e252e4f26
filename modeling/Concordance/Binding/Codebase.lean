import Concordance.Binding.Designator
import Concordance.Declaration.Class

/-!
# Codebases

The modules of all projects with what their names are bound by. Several projects may have a module
of one name; an importer finds the one of its own project first. The base classes of each class are
part of a codebase: they come from resolving names and are then used in resolving more.

## Main definitions

* `ClassId`: which class is meant
* `Source`, `Outline`: what the names of a module are bound by
* `Codebase`: modules, outlines and base classes
* `Codebase.findModule?`: modules by name
* `Codebase.findMember?`: members of a class and of its bases, depth first
-/

namespace Concordance.Binding

open Syntax

/-- A declared class: its module, by index, and where its statement starts. -/
structure ClassId where
  moduleIndex : Nat
  position : Position
deriving DecidableEq, Repr

/-! ### Outlines -/

/-- What a name at the level of a module is bound by. -/
inductive Source where
  | classStatement (c : ClassId)
  /-- The import of a module under its own or another name. -/
  | moduleImport (name : String)
  | nameImport (target name : String)
  | value (d : Designator)
  | hinted (h : Hint) (value : Option Designator)
  /-- Something that is not followed. -/
  | other
deriving DecidableEq, Repr

/-- The names of a module with all they are bound by, in the order of the statements, and the
modules whose public names it takes over. -/
structure Outline where
  names : Table String (List Source) := []
  wildcards : List String := []

namespace Outline

/-- Enter one more source of a name. -/
def add (o : Outline) (name : String) (s : Source) : Outline :=
  { o with names := o.names.alter name fun before => before.getD [] ++ [s] }

/-- The first part of a dotted name. -/
def head (name : String) : String := (splitDots name).headD name

/-- The name that an import binds, and the module that it binds it to. -/
def importedModule (a : Alias) : String × String :=
  match a.asName with
  | some name => (name, a.name)
  | none => (head a.name, head a.name)

/-- The module that names are imported from; an empty name is none. -/
def importTarget? (m : SourceModule) (level : Nat) (source : Option String) : Option String :=
  (absoluteModule? m level source).filter (· ≠ "")

/-- Enter what one of the names of an import from `target` binds. -/
def addImported (target : Option String) (o : Outline) (a : Alias) : Outline :=
  match target with
  | some t =>
    if a.name = "*" then { o with wildcards := o.wildcards ++ [t] }
    else o.add (a.asName.getD a.name) (.nameImport t a.name)
  | none => if a.name = "*" then o else o.add (a.asName.getD a.name) .other

/-- Enter what a target of an assignment binds. The names within a target that is not a name itself
are bound to something that is not followed. -/
def addTarget (value : Designator) (o : Outline) (target : Node) : Outline :=
  match target with
  | .name _ id _ => o.add id (.value value)
  | _ => target.breadthFirst.foldl (fun o n =>
    match n with
    | .name _ id _ => o.add id .other
    | _ => o) o

/-- Enter what a statement binds. -/
def addStatement (m : SourceModule) (index : Nat) (o : Outline) (stmt : Node) : Outline :=
  match stmt with
  | .classDef _ name .. => o.add name (.classStatement ⟨index, stmt.position⟩)
  | .functionDef _ _ name .. => o.add name .other
  | .importModules _ names =>
    names.foldl (fun o a => o.add (importedModule a).1 (.moduleImport (importedModule a).2)) o
  | .importFrom _ source names level =>
    names.foldl (addImported (importTarget? m level source)) o
  | .assign _ targets value => targets.foldl (addTarget (.ofNode value)) o
  | .annAssign _ (.name _ id _) hint value =>
    o.add id (.hinted (.ofNode hint) (value.map Designator.ofNode))
  | _ => o

/-- The outline of the module at an index. -/
def ofModule (m : SourceModule) (index : Nat) : Outline :=
  (moduleStatements m.body).foldl (addStatement m index) {}

end Outline

/-! ### Codebases -/

/-- The modules of all projects, their outlines in the same order, and the base classes found for
each class. -/
structure Codebase where
  modules : List ModuleDecls
  outlines : List Outline
  bases : Table ClassId (List ClassId)

namespace Codebase

/-- A codebase in which no bases have been found. -/
def ofModules (modules : List ModuleDecls) : Codebase :=
  { modules
    outlines := modules.mapIdx fun i d => .ofModule d.source i
    bases := [] }

/-- The outline of a module. -/
def outline (c : Codebase) (m : Nat) : Outline := (c.outlines[m]?).getD {}

/-- The project of a module. -/
def project? (c : Codebase) (m : Nat) : Option String :=
  (c.modules[m]?).map fun d => d.source.project

/-- Whether a module of this name exists. -/
def hasModule (c : Codebase) (name : String) : Bool :=
  c.modules.any fun d => d.source.name = name

/-- The index of the module of a name: the first one of the project asked for, otherwise the first
one of all. -/
def findModule? (c : Codebase) (name : String) (project : Option String) : Option Nat :=
  (c.modules.findIdx? fun d =>
    decide (d.source.name = name) && decide (some d.source.project = project)).or
    (c.modules.findIdx? fun d => d.source.name = name)

/-- All classes, module by module. -/
def classIds (c : Codebase) : List ClassId :=
  (c.modules.mapIdx fun i d => d.classes.map fun x => ⟨i, x.position⟩).flatten

/-- The declaration of a class. -/
def classDecl? (c : Codebase) (k : ClassId) : Option ClassDecl :=
  (c.modules[k.moduleIndex]?).bind fun d => d.classAt? k.position

/-- The symbol of a class. -/
def classSymbol? (c : Codebase) (k : ClassId) : Option Symbol :=
  (c.classDecl? k).map fun d => d.symbol

/-- The base classes of a class. -/
def basesOf (c : Codebase) (k : ClassId) : List ClassId := (c.bases.find? k).getD []

/-- Add a base class to a class. -/
def addBase (c : Codebase) (k base : ClassId) : Codebase :=
  { c with bases := c.bases.alter k fun before => before.getD [] ++ [base] }

/-- The member that a class itself declares. -/
def ownMember? (c : Codebase) (name : String) (k : ClassId) : Option Symbol :=
  (c.classDecl? k).bind fun d => d.ownMember? name

/-! ### Members of classes -/

/-- The number of bases that classes have which a search has not come to. -/
def remaining (c : Codebase) (visited : List ClassId) : Nat :=
  (c.bases.flatMap fun e => if e.1 ∈ visited then [] else e.2).length

/-- A search that comes to a class has its bases to come, and no longer left. -/
theorem remaining_cons_add_le (c : Codebase) {visited : List ClassId} {k : ClassId}
    (hk : k ∉ visited) :
    c.remaining (k :: visited) + (c.basesOf k).length ≤ c.remaining visited := by
  have hle (t : Table ClassId (List ClassId)) :
      (t.flatMap fun e => if e.1 ∈ k :: visited then [] else e.2).length ≤
        (t.flatMap fun e => if e.1 ∈ visited then [] else e.2).length := by
    induction t with
    | nil => exact Nat.le_refl _
    | cons e rest ih =>
      by_cases he : e.1 ∈ visited <;> by_cases h : e.1 = k <;> simp [he, h] at ih ⊢ <;> omega
  unfold remaining basesOf
  induction c.bases with
  | nil => exact Nat.le_refl _
  | cons e rest ih =>
    have hrest := hle rest
    by_cases h : e.1 = k
    · simp [Table.find?, h, hk] at hrest ⊢
      omega
    · by_cases he : e.1 ∈ visited <;> simp [Table.find?, h, he] at ih ⊢ <;> omega

/-- Look for a member through classes and their bases, those of a class before its neighbours;
`stack` holds the classes to come, next one first. No class is looked at twice. -/
def searchMember (c : Codebase) (name : String) (visited : List ClassId) :
    (stack : List ClassId) → Option (Symbol × ClassId)
  | [] => none
  | k :: stack =>
    if k ∈ visited then searchMember c name visited stack
    else
      match c.ownMember? name k with
      | some s => some (s, k)
      | none => searchMember c name (k :: visited) (c.basesOf k ++ stack)
termination_by stack => c.remaining visited + stack.length
decreasing_by
  · simp_wf
  · simp_wf
    have hle := c.remaining_cons_add_le (show k ∉ visited by assumption)
    omega

/-- The member that a class has under a name, with the class that declares it. `skipSelf` leaves
out the class itself. -/
def findMember? (c : Codebase) (k : ClassId) (name : String) (skipSelf : Bool) :
    Option (Symbol × ClassId) :=
  c.searchMember name [] (if skipSelf then c.basesOf k else [k])

end Codebase

end Concordance.Binding
