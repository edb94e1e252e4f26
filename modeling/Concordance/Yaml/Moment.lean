import Concordance.Json.Reader
import Concordance.Toml.Scalar
import Concordance.Yaml.Token

/-!
# Dates and times in YAML

A day, alone or with a time and a distance from the universal time. What is written like one need
not exist: the parts are checked one after the other.

## Main definitions

* `Moment`, `Moment.ofText?`: the parts of a date and time
* `Moment.check`: whether it exists
-/

namespace Concordance.Yaml

/-- The time of a day, with the distance from the universal time in minutes if there is one. -/
structure Clock where
  hour : Nat
  minute : Nat
  second : Nat
  offset : Int := 0

/-- A day and the time on it. -/
structure Moment where
  year : Nat
  month : Nat
  day : Nat
  /-- Whether the month and the day have two digits each. -/
  isFull : Bool
  clock : Option Clock := none

namespace Moment

/-- A number of at least `least` and at most two digits, with how many it has. -/
def readShort (least : Nat) (cs : List Char) : Option ((Nat × Nat) × List Char) :=
  let digits := (cs.takeWhile Char.isDigit).take 2
  if digits.length < least then none
  else some ((Json.digitsValue digits, digits.length), cs.drop digits.length)

/-- Whether a character is a blank. -/
def isSpace (c : Char) : Bool := c = ' ' || c = '\t'

/-- Go over a fraction of a second. -/
def dropFraction : List Char → List Char
  | '.' :: rest => rest.dropWhile Char.isDigit
  | cs => cs

/-- A distance from the universal time in minutes, up to the end. -/
def readOffset? (cs : List Char) : Option Int :=
  match cs, cs.dropWhile isSpace with
  | [], _ => some 0
  | _, ['Z'] => some 0
  | _, sign :: rest =>
    if sign = '+' || sign = '-' then do
      let ((hours, _), rest) ← readShort 1 rest
      let minutes ←
        match rest with
        | [] => some 0
        | ':' :: rest => do
          let ((m, _), rest) ← readShort 2 rest
          if rest.isEmpty then some m else none
        | _ => none
      let size : Int := hours * 60 + minutes
      some (if sign = '-' then -size else size)
    else none
  | _, [] => none

/-- The time behind a day, up to the end. -/
def readClock? (cs : List Char) : Option Clock := do
  let rest ←
    match cs with
    | c :: rest =>
      if c = 'T' || c = 't' then some rest
      else if isSpace c then some (rest.dropWhile isSpace)
      else none
    | [] => none
  let ((hour, _), rest) ← readShort 1 rest
  let ((minute, _), rest) ← readShort 2 (← Toml.dropChar ':' rest)
  let ((second, _), rest) ← readShort 2 (← Toml.dropChar ':' rest)
  some ⟨hour, minute, second, ← readOffset? (dropFraction rest)⟩

/-- The parts of a date and time. -/
def ofText? (cs : List Char) : Option Moment := do
  let (year, rest) ← Toml.readFixed 4 cs
  let ((month, n), rest) ← readShort 1 (← Toml.dropChar '-' rest)
  let ((day, k), rest) ← readShort 1 (← Toml.dropChar '-' rest)
  let m : Moment := { year, month, day, isFull := n = 2 && k = 2 }
  if rest.isEmpty then some m else some { m with clock := some (← readClock? rest) }

/-- A distance of a day or more, as it is told. -/
def offsetText (offset : Int) : String :=
  let days := offset.fdiv 1440
  let seconds := offset.fmod 1440 * 60
  "offset must be a timedelta strictly between -timedelta(hours=24) and timedelta(hours=24), " ++
    "not datetime.timedelta(days=" ++ toString days ++
    (if seconds = 0 then "" else ", seconds=" ++ toString seconds) ++ ")."

/-- Fail with a wording unless something holds. -/
def require (holds : Bool) (text : String) : Except Fault Unit :=
  if holds then .ok () else .error (.failed (.value text))

/-- Fail unless a date and time exists. -/
def check (m : Moment) : Except Fault Unit := do
  let clock := m.clock.getD ⟨0, 0, 0, 0⟩
  require (clock.offset.natAbs < 1440) (offsetText clock.offset)
  require (1 ≤ m.year) ("year " ++ toString m.year ++ " is out of range")
  require (1 ≤ m.month && m.month ≤ 12) "month must be in 1..12"
  require (1 ≤ m.day && m.day ≤ Toml.daysOf m.year m.month) "day is out of range for month"
  require (clock.hour ≤ 23) "hour must be in 0..23"
  require (clock.minute ≤ 59) "minute must be in 0..59"
  require (clock.second ≤ 59) "second must be in 0..59"

end Moment

end Concordance.Yaml
