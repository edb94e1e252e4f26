import Concordance.Command.Start
import Concordance.Service.Reply

/-!
# The program

The command line: a server for one workspace that reads calls from the standard input, one JSON
object with a name and arguments to a line, and writes the answers to the standard output.
Everything that is read from the file system is handed over as a file tree.

## Main definitions

* `main`: the program
-/

namespace Concordance.Program

/-- Put what lies at a path into a tree: a file, or a directory with all that it holds. What cannot
be read is left out, and so are links to directories in the directory at `above`, which could lead
back to it. -/
partial def addEntry (tree : Entry) (p : Path) (above : Option String := none) : IO Entry := do
  try
    let place ← IO.FS.realPath p.text
    if ← place.isDir then
      if above.isSome && place.parent.map toString ≠ above then pure tree
      else
        (← place.readDir).foldlM (fun tree e => addEntry tree (p.child e.fileName) place.toString)
          (tree.put p.parts (.directory []))
    else
      return tree.put p.parts (.file (← IO.FS.readBinFile place).toList)
  catch _ => pure tree

/-- The homes that are known: that of whoever runs the program. -/
def homesOf (home : Option String) (name : String) : String :=
  if name = "~" then home.elim name fun text => if text = "" then "/" else text else name

/-- The files that a start depends on: the workspace and the settings file. -/
def readStart (directory : Path) (environment : Table String String) (o : Command.Options)
    (homes : String → String) : IO Entry := do
  let given := Path.ofText (chosenRoot o.workspaceRoot environment)
  let root := (directory.append ((given.expandHome homes).toOption.getD given)).normalize
  let settings := (directory.append (o.config.getD (.ofText Settings.fileName))).normalize
  addEntry (← addEntry (.directory []) root) settings

/-- Answer a call that is written on a line. -/
def answerLine (line : String) : StateM (Service × Entry) String := do
  let call := (Json.parse? line).getD .null
  match Service.Request.ofCall? ((Service.argument? call "name").getD "")
      ((call.field? "arguments").getD .null) with
  | none => pure "unknown call"
  | some r =>
    let (service, _) ← get
    match (← Service.reply (.ofFiles id service.settings) false r).1 with
    | .ok text => pure text
    | .error f => pure f.message

/-- Answer the calls on the lines of the input, up to its end. -/
partial def serve (root : Path) (service : Service) (input output : IO.FS.Stream) : IO Unit := do
  let line ← input.getLine
  if line.isEmpty then return
  let tree ← addEntry (.directory []) root
  let (text, service, _) := (answerLine line).run (service, tree)
  output.putStrLn text
  output.flush
  serve root service input output

/-- Run a server with options. Without a root that can be used it does not start. -/
def runWith (o : Command.Options) : IO UInt32 := do
  let directory := Path.ofText (← IO.currentDir).toString
  let environment := (← IO.getEnv rootVariable).toList.map fun v => (rootVariable, v)
  let homes := homesOf (← IO.getEnv "HOME")
  let tree ← readStart directory environment o homes
  let started := do
    let start ← Command.Start.ofOptions tree directory environment o homes
    return (start, ← Service.ofSettings start.settings start.root.text)
  match started with
  | .error (.configuration text) =>
    IO.eprintln ("Configuration error: " ++ text)
    return 2
  | .error f => throw (IO.userError f.message)
  | .ok (start, service) =>
    serve start.root service (← IO.getStdin) (← IO.getStdout)
    return 0

end Concordance.Program

/-- The program. -/
def main (arguments : List String) : IO UInt32 :=
  match Concordance.Command.Options.parse arguments with
  | .ok o => Concordance.Program.runWith o
  | .error r => do
    IO.eprintln ("usage: [-h] [--workspace-root PATH] [--config PATH] [--transport NAME] " ++
      "[--log-level LEVEL] [--log-dir PATH] [--watch]")
    return r.status.toUInt32
