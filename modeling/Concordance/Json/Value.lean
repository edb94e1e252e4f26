/-!
# JSON values

The values of JSON. Whole numbers are exact, other numbers are floating point, and the fields of
an object keep their order.

## Main definitions

* `Json.Value`
* `Json.Value.field?`: the value under a name
-/

namespace Concordance.Json

/-- A JSON value. -/
inductive Value where
  | null
  | bool (b : Bool)
  | int (n : Int)
  | float (x : Float)
  | string (s : String)
  | array (items : List Value)
  | object (fields : List (String × Value))

instance : Inhabited Value := ⟨.null⟩

/-- The value of the last field of a name. -/
def Value.field? (v : Value) (name : String) : Option Value :=
  match v with
  | object fields => (fields.reverse.find? fun f => f.1 = name).map Prod.snd
  | _ => none

end Concordance.Json
