import Concordance.Decimal.Shortest
import Concordance.Json.Value
import Concordance.Text.Quoted

/-!
# JSON values as they are shown

A value within a message: a text as it is, anything else as it is written in messages, with texts
between quotes inside of arrays and objects.

## Main definitions

* `Json.Value.told`: a value within a message
-/

namespace Concordance.Json.Value

mutual

/-- A value as it is written in messages. -/
def shown : Value → String
  | null => "None"
  | bool b => if b then "True" else "False"
  | int n => toString n
  | float x => Decimal.text x
  | string s => Text.quoteText s
  | array items => "[" ++ ", ".intercalate (shownItems items) ++ "]"
  | object fields => "\x7b" ++ ", ".intercalate (shownFields fields) ++ "\x7d"

/-- The items of an array as they are written in messages. -/
def shownItems : List Value → List String
  | [] => []
  | v :: rest => v.shown :: shownItems rest

/-- The fields of an object as they are written in messages. -/
def shownFields : List (String × Value) → List String
  | [] => []
  | (k, v) :: rest => (Text.quoteText k ++ ": " ++ v.shown) :: shownFields rest

end

/-- A value within a message. -/
def told : Value → String
  | string s => s
  | v => v.shown

end Concordance.Json.Value
