import Concordance.Decimal.Shortest
import Concordance.Json.Value
import Concordance.Text.Quoted
import Concordance.Toml.Value

/-!
# TOML values as they are shown

A value within a text: a string as it is, anything else as it is written in messages, with strings
between quotes inside of arrays and tables. And a value within an answer.

## Main definitions

* `Toml.Value.text`: a value within a text
* `Toml.Value.answer`: a value within an answer
-/

namespace Concordance.Toml.Value

mutual

/-- A value as it is written in messages. -/
def shown : Value → String
  | string s => Text.quoteText s
  | int n => toString n
  | float x => Decimal.text x
  | bool b => if b then "True" else "False"
  | moment _ text => text
  | array items => "[" ++ ", ".intercalate (shownItems items) ++ "]"
  | table fields => "\x7b" ++ ", ".intercalate (shownFields fields) ++ "\x7d"

/-- The items of an array as they are written in messages. -/
def shownItems : List Value → List String
  | [] => []
  | v :: rest => v.shown :: shownItems rest

/-- The fields of a table as they are written in messages. -/
def shownFields : List (String × Value) → List String
  | [] => []
  | (k, v) :: rest => (Text.quoteText k ++ ": " ++ v.shown) :: shownFields rest

end

/-- A value within a text. -/
def text : Value → String
  | string s => s
  | v => v.shown

mutual

/-- A value within an answer. -/
def answer : Value → Json.Value
  | string s => .string s
  | int n => .int n
  | float x => .float x
  | bool b => .bool b
  | moment _ text => .string text
  | array items => .array (answerItems items)
  | table fields => .object (answerFields fields)

/-- The items of an array within an answer. -/
def answerItems : List Value → List Json.Value
  | [] => []
  | v :: rest => v.answer :: answerItems rest

/-- The fields of a table within an answer. -/
def answerFields : List (String × Value) → List (String × Json.Value)
  | [] => []
  | (k, v) :: rest => (k, v.answer) :: answerFields rest

end

end Concordance.Toml.Value
