import Concordance.Syntax.Tree

/-!
# Modules

A parsed source file of a project, and the statements that take effect at its level: those that
stand there and those within branches, guards and contexts, since these open no scope.

## Main definitions

* `SourceModule`: a parsed source file
* `SourceModule.package`, `absoluteModule?`: what relative imports refer to
* `moduleStatements`: the statements of the module level
-/

namespace Concordance

open Syntax

/-- A parsed source file of a project. -/
structure SourceModule where
  name : String
  file : String := ""
  project : String
  isPackage : Bool := false
  body : List Node

/-- The parts of a dotted name. -/
def splitDots (s : String) : List String :=
  go [] s.toList
where
  /-- Split characters; `acc` holds the part being read, last first. -/
  go (acc : List Char) : List Char → List String
    | [] => [String.ofList acc.reverse]
    | c :: rest =>
      if c = '.' then String.ofList acc.reverse :: go [] rest else go (c :: acc) rest

/-- Parts joined by dots. -/
def joinDots (parts : List String) : String := ".".intercalate parts

/-- The package that relative imports of a module start from: a package itself, otherwise what
stands before the last dot of its name. -/
def SourceModule.package (m : SourceModule) : String :=
  if m.isPackage then m.name else joinDots (splitDots m.name).dropLast

/-- The full name of the module that an import from `level` dots and a name refers to; none if the
dots lead out of the outermost package, or to no name. -/
def absoluteModule? (m : SourceModule) (level : Nat) (name : Option String) : Option String :=
  if level = 0 then name
  else
    let parts := if m.package = "" then [] else splitDots m.package
    if parts.length < level - 1 then none
    else
      let base := parts.take (parts.length - (level - 1))
      let full := base ++ (name.filter (· ≠ "")).toList
      if full.isEmpty then none else some (joinDots full)

mutual

/-- The statements within a branch, guard or context; of a guard the handlers come last. -/
def innerStatements : Node → List Node
  | .branch _ _ body orElse => moduleStatements body ++ moduleStatements orElse
  | .guarded _ _ body handlers orElse final =>
    moduleStatements body ++ moduleStatements orElse ++ moduleStatements final ++
      handlerStatements handlers
  | .within _ _ _ body => moduleStatements body
  | .handler _ _ _ body => moduleStatements body
  | _ => []

/-- The statements of the module level: each one, followed by those within it. -/
def moduleStatements : List Node → List Node
  | [] => []
  | n :: rest => n :: (innerStatements n ++ moduleStatements rest)

/-- The statements within handlers. -/
def handlerStatements : List Node → List Node
  | [] => []
  | h :: rest => innerStatements h ++ handlerStatements rest

end

theorem moduleStatements_append (xs ys : List Node) :
    moduleStatements (xs ++ ys) = moduleStatements xs ++ moduleStatements ys := by
  induction xs with
  | nil => simp [moduleStatements]
  | cons n rest ih => simp [moduleStatements, ih]

end Concordance
