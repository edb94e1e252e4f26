/-!
# Paths

Paths as their parts. Empty parts and single dots do not count; two dots do, since what stands in
front of them may be a link. Two slashes at the start are a root of their own.

## Main definitions

* `Path`, `Path.ofText`, `Path.text`: paths and how they are written
* `Path.name`, `Path.suffix`, `Path.parent`, `Path.append`: their parts
* `Path.relativeTo?`: a path seen from another
* `Path.normalize`: two dots taken back
-/

namespace Concordance

/-- A path: the root it starts from, empty for none, and its parts. -/
structure Path where
  root : String
  parts : List String
deriving DecidableEq, Repr

namespace Path

/-- The parts of a text between slashes; `acc` holds the part being read, last character first. -/
def splitFrom (acc : List Char) : List Char → List String
  | [] => [String.ofList acc.reverse]
  | c :: rest =>
    if c = '/' then String.ofList acc.reverse :: splitFrom [] rest else splitFrom (c :: acc) rest

/-- The root of a path that is written as these characters. -/
def rootOf (cs : List Char) : String :=
  match (cs.takeWhile (· = '/')).length with
  | 0 => ""
  | 2 => "//"
  | _ => "/"

/-- The path that a text writes. -/
def ofText (s : String) : Path :=
  { root := rootOf s.toList
    parts := (splitFrom [] s.toList).filter fun p => p ≠ "" && p ≠ "." }

/-- How a path is written. -/
def text (p : Path) : String :=
  if p.root = "" && p.parts.isEmpty then "." else p.root ++ "/".intercalate p.parts

/-- Whether a path starts from a root. -/
def isAbsolute (p : Path) : Bool := p.root ≠ ""

/-- The last part of a path, empty if it has none. -/
def name (p : Path) : String := p.parts.getLastD ""

/-- The path of the directory that holds something. -/
def parent (p : Path) : Path := { p with parts := p.parts.dropLast }

/-- A path below a directory. -/
def child (p : Path) (name : String) : Path := { p with parts := p.parts ++ [name] }

/-- A path seen from another one: the second, if it has a root. -/
def append (p q : Path) : Path := if q.isAbsolute then q else { p with parts := p.parts ++ q.parts }

/-- The root and the parts of a path. -/
def components (p : Path) : List String := if p.root = "" then p.parts else p.root :: p.parts

/-- The rest of a list behind the start given. -/
def dropStart? : (start l : List String) → Option (List String)
  | [], l => some l
  | _ :: _, [] => none
  | a :: start, b :: l => if a = b then dropStart? start l else none

/-- A path seen from a directory that it lies below. -/
def relativeTo? (p dir : Path) : Option Path :=
  if p.root = dir.root then (dropStart? dir.parts p.parts).map fun parts => ⟨"", parts⟩ else none

/-! ### Names -/

/-- A name in front of and behind its last dot; a dot at either end is none. -/
def splitSuffix (name : String) : String × String :=
  let behind := (name.toList.reverse.takeWhile (· ≠ '.')).reverse
  let front := name.toList.take (name.toList.length - behind.length - 1)
  if behind.isEmpty || front.isEmpty then (name, "")
  else (String.ofList front, "." ++ String.ofList behind)

/-- The last dot of the name and what follows it. -/
def suffix (p : Path) : String := (splitSuffix p.name).2

/-- A path without the suffix of its name. -/
def withoutSuffix (p : Path) : Path :=
  { p with parts := p.parts.dropLast ++ (p.parts.getLast?.map fun n => (splitSuffix n).1).toList }

/-- Take two dots back with the part in front of them; at the root there is none. -/
def takeBack (done : List String) (part : String) : List String :=
  if part = ".." then done.dropLast else done ++ [part]

/-- A path from the root in which two dots are taken back. -/
def normalize (p : Path) : Path :=
  { root := if p.isAbsolute then "/" else "", parts := p.parts.foldl takeBack [] }

/-! ### What is written and read -/

theorem dropStart?_append (a b : List String) : dropStart? a (a ++ b) = some b := by
  induction a with
  | nil => rfl
  | cons x a ih => simp [dropStart?, ih]

theorem relativeTo?_append (dir : Path) (parts : List String) :
    relativeTo? { dir with parts := dir.parts ++ parts } dir = some ⟨"", parts⟩ := by
  simp [relativeTo?, dropStart?_append]

end Path

end Concordance
