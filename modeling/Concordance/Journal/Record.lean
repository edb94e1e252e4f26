import Concordance.Failure.Shown
import Concordance.Json.Shown

/-!
# Records of the journal

A record has a level, the name of who made it and a message, whose marks stand for arguments. It may
come with a failure and with further fields.

## Main definitions

* `levelName`: the names of the levels
* `fillIn?`: a message with its arguments
* `Record`: the records
-/

namespace Concordance.Journal

/-- The level of what goes as it should. -/
def infoLevel : Int := 20

/-- The level from which on records are never lost. -/
def warningLevel : Int := 30

/-- The levels that have a name. -/
def levelNames : List (Int × String) :=
  [(50, "CRITICAL"), (40, "ERROR"), (warningLevel, "WARNING"), (infoLevel, "INFO"), (10, "DEBUG"),
    (0, "NOTSET")]

/-- The name of a level. -/
def levelName (level : Int) : String := (levelNames.lookup level).getD ("Level " ++ toString level)

/-- The level of a name. -/
def levelOfName? (name : String) : Option Int :=
  (levelNames.find? fun p => p.2 = name).map Prod.fst

/-! ### Messages -/

/-- A whole number in place of a mark; other numbers are cut off at the point. -/
def numberFor? : Json.Value → Option String
  | .int n => some (toString n)
  | .bool b => some (if b then "1" else "0")
  | .float x =>
    if x.isNaN || x.isInf then none
    else
      let size := x.abs.floor.toUInt64.toNat
      some (if x < 0 && size ≠ 0 then "-" ++ toString size else toString size)
  | _ => none

/-- What stands in place of a mark. -/
def argumentFor? (mark : Char) (v : Json.Value) : Option String :=
  if mark = 's' then some v.told
  else if mark = 'r' then some v.shown
  else if mark = 'd' || mark = 'i' then numberFor? v
  else none

/-- A text whose marks are filled in, if there are as many of them as arguments. -/
def fillIn? : List Char → List Json.Value → Option (List Char)
  | [], [] => some []
  | [], _ :: _ => none
  | ['%'], _ => none
  | '%' :: '%' :: rest, args => (fillIn? rest args).map ('%' :: ·)
  | '%' :: mark :: rest, args =>
    match args with
    | [] => none
    | v :: args =>
      match argumentFor? mark v with
      | some text => (fillIn? rest args).map (text.toList ++ ·)
      | none => none
  | c :: rest, args => (fillIn? rest args).map (c :: ·)

/-- A record. -/
structure Record where
  /-- Who made the record. -/
  source : String
  level : Int
  message : String
  arguments : List Json.Value := []
  failure : Option Failure := none
  fields : List (String × Json.Value) := []

namespace Record

/-- The message, with its arguments if there are any. -/
def text? (r : Record) : Option String :=
  if r.arguments.isEmpty then some r.message
  else (fillIn? r.message.toList r.arguments).map String.ofList

/-- Who made the record; those without a name count as one. -/
def sourceName (r : Record) : String := if r.source = "" then "root" else r.source

end Record

end Concordance.Journal
