import Concordance.Table
import Concordance.Workspace.Path

/-!
# Files

A file tree as a value: directories hold entries under names, in the order of the names. There are
no links. A path is followed part by part; two dots lead back to the directory that holds the one
that has been reached, so that everything in front of them has to exist.

## Main definitions

* `Entry`: a file or directory
* `Entry.follow?`: the entry that a path leads to
* `Entry.put`, `Entry.remove`: changes
-/

namespace Concordance

/-- A file with its octets, or a directory with its entries. -/
inductive Entry where
  | file (octets : List UInt8)
  | directory (entries : List (String × Entry))

instance : Inhabited Entry := ⟨.directory []⟩

namespace Entry

/-- Whether an entry is a directory. -/
def isDirectory : Entry → Bool
  | directory _ => true
  | file _ => false

/-- The octets of a file. -/
def octets? : Entry → Option (List UInt8)
  | file octets => some octets
  | directory _ => none

/-- What a directory holds. -/
def entries : Entry → List (String × Entry)
  | directory es => es
  | file _ => []

/-- The entry of a name in a directory. -/
def child? (e : Entry) (name : String) : Option Entry := Table.find? name e.entries

/-- The octets of a file in a directory. -/
def fileIn? (e : Entry) (name : String) : Option (List UInt8) := (e.child? name).bind octets?

/-- Follow parts of a path; `way` holds the entries on the way, the one that is reached first. -/
def followFrom (way : List Entry) : List String → Option Entry
  | [] => way.head?
  | part :: rest =>
    match way with
    | [] => none
    | here :: outer =>
      if !here.isDirectory then none
      else if part = ".." then followFrom (if outer.isEmpty then way else outer) rest
      else
        match here.child? part with
        | some e => followFrom (e :: way) rest
        | none => none

/-- The entry that a path leads to, from the root. -/
def follow? (root : Entry) (p : Path) : Option Entry := followFrom [root] p.parts

/-- Whether a path leads to a file. -/
def isFileAt (root : Entry) (p : Path) : Bool := ((root.follow? p).bind octets?).isSome

/-- Whether a path leads to a directory. -/
def isDirectoryAt (root : Entry) (p : Path) : Bool := (root.follow? p).any isDirectory

/-! ### Changes -/

/-- Put an entry among others, in the order of the names, in place of the one of its name. -/
def putSorted (name : String) (e : Entry) : List (String × Entry) → List (String × Entry)
  | [] => [(name, e)]
  | (n, old) :: rest =>
    if n = name then (n, e) :: rest
    else if name < n then (name, e) :: (n, old) :: rest
    else (n, old) :: putSorted name e rest

/-- Put an entry at the end of a path; directories on the way are made. A directory does not take
the place of one that exists. -/
def put (e : Entry) (parts : List String) (new : Entry) : Entry :=
  match parts with
  | [] => if new.isDirectory && e.isDirectory then e else new
  | part :: rest =>
    let inner := (e.child? part).getD (directory [])
    directory (putSorted part (put inner rest new) e.entries)

/-- Remove what a path leads to. -/
def remove (e : Entry) (parts : List String) : Entry :=
  match parts with
  | [] => e
  | [part] => directory (e.entries.filter fun x => x.1 ≠ part)
  | part :: rest =>
    match e.child? part with
    | some inner => directory (putSorted part (remove inner rest) e.entries)
    | none => e

end Entry

end Concordance
