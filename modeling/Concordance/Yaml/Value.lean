import Concordance.Decimal.Limit
import Concordance.Failure
import Concordance.Table

/-!
# YAML values

The values of YAML. Tables keep the order of their keys, which may be any values that do not change.
Dates, times and octets are kept as texts: they are only ever refused.

## Main definitions

* `Yaml.Value`: the values
* `Yaml.Value.isFixed`: what can be a key
* `Yaml.Value.checkShown`: whether a value can be told in a message
-/

namespace Concordance.Yaml

/-- A YAML value. -/
inductive Value where
  | null
  | bool (b : Bool)
  | int (n : Int)
  | float (x : Float)
  | string (s : String)
  /-- A date, a time or octets. -/
  | other (text : String)
  | array (items : List Value)
  | table (fields : List (Value × Value))
  | set (fields : List (Value × Value))

instance : Inhabited Value := ⟨.null⟩

namespace Value

/-- Whether a value can be a key: collections change. -/
def isFixed : Value → Bool
  | array _ => false
  | table _ => false
  | set _ => false
  | _ => true

/-- The text that a value is, if it is one. -/
def string? : Value → Option String
  | string s => some s
  | _ => none

mutual

/-- Whether all whole numbers within a value are short enough to be told. -/
def isShort : Value → Bool
  | int n => Decimal.isWritable n.natAbs
  | array items => areShort items
  | table fields => arePairsShort fields
  | set fields => arePairsShort fields
  | _ => true

/-- Whether all whole numbers within values are short enough to be told. -/
def areShort : List Value → Bool
  | [] => true
  | v :: rest => v.isShort && areShort rest

/-- Whether all whole numbers within keys and entries are short enough to be told. -/
def arePairsShort : List (Value × Value) → Bool
  | [] => true
  | (k, v) :: rest => k.isShort && v.isShort && arePairsShort rest

end

/-- Fail if a value cannot be told in a message. -/
def checkShown (v : Value) : Except Failure Unit :=
  if v.isShort then .ok () else .error (.value Decimal.tooLongToWrite)

end Value

end Concordance.Yaml
