import Concordance.Failure
import Concordance.Text.Blank
import Concordance.Text.Quoted
import Concordance.Workspace.Files
import Concordance.Workspace.Metadata

/-!
# The root of a workspace

Where the workspace lies that a process is started for: it is given on the command line, in the
environment, or lies at a fixed place. It has to be a directory or a metadata file.

A tilde in front stands for a home. Whose home lies where is not known here. A path can also be one
that cannot be asked for: it holds the null character, it is too long as a whole, or a directory on
the way is asked for a name that is too long.

## Main definitions

* `chosenRoot`: the root that is given
* `Path.expandHome`: a path with a home in place of a tilde
* `Entry.isTooLongFor`: paths that are too long
* `resolveRoot`: the root as an absolute path
-/

namespace Concordance

/-- The name under which the environment holds a root. -/
def rootVariable : String := "WORKSPACE_XREF_ROOT"

/-- The root if none is given. -/
def usualRoot : String := "/app/workspace"

/-- A text unless there is nothing in it. -/
def given? (s : Option String) : Option String := s.filter (· ≠ "")

/-- The root that is given; the command line comes before the environment. -/
def chosenRoot (argument : Option String) (environment : Table String String) : String :=
  ((given? argument).or (given? (environment.find? rootVariable))).getD usualRoot

/-! ### Homes -/

/-- Whether a text starts with a tilde. -/
def startsWithTilde (s : String) : Bool := s.toList.head? = some '~'

/-- A path with a home in place of its first part, if that starts with a tilde and the path has no
root. What a tilde and a name stand for stays as it is where nobody has a home. -/
def Path.expandHome (homes : String → String) (p : Path) : Except Failure Path :=
  match p.parts with
  | first :: rest =>
    if !p.isAbsolute && startsWithTilde first then
      let home := homes first
      if startsWithTilde home then .error (.state "Could not determine home directory.")
      else .ok { Path.ofText home with parts := (Path.ofText home).parts ++ rest }
    else .ok p
  | [] => .ok p

/-! ### Paths that cannot be asked for -/

/-- Whether the null character is in a path. -/
def Path.hasNull (p : Path) : Bool := p.parts.any fun part => part.toList.contains '\x00'

/-- A directory can be asked for names of up to this number of octets. -/
def mostNameBytes : Nat := 255

/-- A path can be asked for if it has fewer octets. -/
def pathBound : Nat := 4096

/-- Whether a directory is asked for a name that is too long when parts are followed. What does not
exist, or is a file, is not asked for anything. -/
def Entry.asksTooLong (here : Entry) : List String → Bool
  | [] => false
  | part :: rest =>
    here.isDirectory && (mostNameBytes < part.utf8ByteSize ||
      (here.child? part).any fun e => e.asksTooLong rest)

/-- Whether a path is too long to be followed in a file tree. -/
def Entry.isTooLongFor (tree : Entry) (p : Path) : Bool :=
  pathBound ≤ p.text.utf8ByteSize || tree.asksTooLong p.parts

/-- The failure of a path that is too long. -/
def Path.tooLong (p : Path) : Failure :=
  .other "OSError" ("[Errno 36] File name too long: " ++ Text.quoteText p.text)

/-! ### The root -/

/-- What a path without two dots leads to, as a root. -/
def acceptRoot (tree : Entry) (p : Path) : Except Failure Path :=
  if tree.isTooLongFor p then .error p.tooLong
  else
    match tree.follow? p with
    | none => .error (.configuration ("Workspace root does not exist: " ++ p.text))
    | some e =>
      if e.isDirectory || Metadata.fileNames.contains p.name then .ok p
      else
        .error <| .configuration <|
          "Workspace root must be a directory or one of " ++ ", ".intercalate Metadata.fileNames ++
            ": " ++ p.text

/-- The root as an absolute path, seen from a directory. -/
def resolveRoot (tree : Entry) (directory : Path) (argument : Option String)
    (environment : Table String String) (homes : String → String := id) : Except Failure Path :=
  let raw := chosenRoot argument environment
  if Text.isBlankText raw then .error (.configuration "Workspace root must not be blank")
  else
    match (Path.ofText raw).expandHome homes with
    | .error f => .error f
    | .ok given =>
      if given.hasNull then .error (.value "embedded null byte")
      else acceptRoot tree (directory.append given).normalize

end Concordance
