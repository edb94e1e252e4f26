import Concordance.Journal.Record
import Concordance.Json.Printer
import Concordance.Table
import Concordance.Workspace.Path

/-!
# The journal

Records from a level on are written down: one JSON object to a line in a file of the day, and as
text on the console. With neither of them only warnings are left, and only their texts.

## Main definitions

* `Setup`: what is written down and where
* `Stamp`: the time, as it is written
* `Setup.consoleLines`, `Setup.fileLines`: what is written for records
-/

namespace Concordance.Journal

/-- The time of a record as the file and the console have it, and the day. -/
structure Stamp where
  inFile : String
  onConsole : String
  day : String

/-- Where records are written. -/
inductive Place where
  | file
  | console
deriving DecidableEq, Repr

/-- What is written down and where. -/
structure Setup where
  level : Int := infoLevel
  directory : Option Path := none
  console : Bool := true

namespace Setup

/-- The places that records are written to. -/
def places (s : Setup) : List Place :=
  (if s.directory.isSome then [.file] else []) ++ (if s.console then [.console] else [])

/-- The file of a day. -/
def file? (s : Setup) (t : Stamp) : Option Path :=
  s.directory.map fun d => d.child ("workspace_xref_" ++ t.day ++ ".log")

/-- The first record tells the set-up itself. -/
def firstRecord (s : Setup) (t : Stamp) : Record :=
  { source := "workspace_xref.logging_setup", level := infoLevel
    message := "Logging initialized (level=" ++ levelName s.level ++ ", file=" ++
      ((s.file? t).map Path.text).getD "None" ++ ")" }

/-- Whether a record is written down. -/
def takes (s : Setup) (r : Record) : Bool := 0 < r.level && s.level ≤ r.level

/-- The records that are written down, the one of the set-up first. -/
def taken (s : Setup) (t : Stamp) (records : List Record) : List Record :=
  (s.firstRecord t :: records).filter s.takes

/-- A text with the failure of its record behind it, on a line of its own. -/
def withFailure (text : String) (r : Record) : String :=
  match r.failure with
  | none => text
  | some f => (if text.endsWith "\n" then text else text ++ "\n") ++ f.report

/-- A record on the console. -/
def consoleText? (t : Stamp) (r : Record) : Option String :=
  r.text?.map fun text =>
    withFailure (" - ".intercalate [t.onConsole, r.sourceName, levelName r.level, text]) r

/-- The lines on the console. If records are written nowhere, warnings still go there. -/
def consoleLines (s : Setup) (t : Stamp) (records : List Record) : List String :=
  let texts :=
    if s.console then (s.taken t records).filterMap (consoleText? t)
    else if s.directory.isSome then []
    else
      ((s.taken t records).filter fun r => warningLevel ≤ r.level).filterMap fun r =>
        r.text?.map fun text => withFailure text r
  texts.flatMap fun text => text.splitOn "\n"

/-- A record in the file. Further fields come last, or take the place of those that are there. -/
def fileLine? (t : Stamp) (r : Record) : Option String :=
  r.text?.map fun text =>
    let fields : Table String Json.Value :=
      [("timestamp", .string t.inFile), ("level", .string (levelName r.level)),
        ("logger", .string r.sourceName), ("message", .string text)] ++
      (r.failure.map fun f => ("exception", Json.Value.string f.report)).toList
    let fields := r.fields.foldl (fun fields (k, v) => Table.insert k v fields) fields
    Json.render .ascii .spaced (.object fields)

/-- The lines in the file. -/
def fileLines (s : Setup) (t : Stamp) (records : List Record) : List String :=
  (s.taken t records).filterMap (fileLine? t)

end Setup

end Concordance.Journal
