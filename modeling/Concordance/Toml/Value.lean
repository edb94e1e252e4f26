import Concordance.Failure
import Concordance.Table

/-!
# TOML values

The values of TOML. Tables keep the order in which their keys came. Dates and times are kept as
they are written in answers: they are only ever shown.

## Main definitions

* `Toml.Value`: the values
* `Toml.Value.isEmpty`: the values that count as nothing
* `Toml.Value.field?`: the value under a key of a table
-/

namespace Concordance.Toml

/-- The kinds of dates and times. -/
inductive MomentKind where
  | dateTime
  | date
  | time
deriving DecidableEq, Repr

/-- A TOML value. -/
inductive Value where
  | string (s : String)
  | int (n : Int)
  | float (x : Float)
  | bool (b : Bool)
  | moment (kind : MomentKind) (text : String)
  | array (items : List Value)
  | table (fields : List (String × Value))

instance : Inhabited Value := ⟨.bool false⟩

namespace Value

/-- Whether a value counts as nothing: zero, false, and what has no content. -/
def isEmpty : Value → Bool
  | string s => s = ""
  | int n => n = 0
  | float x => x == 0.0
  | bool b => !b
  | moment .. => false
  | array items => items.isEmpty
  | table fields => fields.isEmpty

/-- The name of the kind of a value, as failures tell it. -/
def kindName : Value → String
  | string _ => "str"
  | int _ => "int"
  | float _ => "float"
  | bool _ => "bool"
  | moment .dateTime _ => "datetime.datetime"
  | moment .date _ => "datetime.date"
  | moment .time _ => "datetime.time"
  | array _ => "list"
  | table _ => "dict"

/-- The value under a key of a table; only a table can be asked. -/
def field? (v : Value) (key : String) : Except Failure (Option Value) :=
  match v with
  | table fields => .ok (Table.find? key fields)
  | v => .error (.part ("'" ++ v.kindName ++ "' object has no attribute 'get'"))

end Value

end Concordance.Toml
