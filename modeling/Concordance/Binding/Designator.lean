import Concordance.Failure
import Concordance.Syntax.Source

/-!
# Designators and hints

The expressions that can denote something declared, and the type hints, in the form in which they
are resolved. Everything else is `unknown` or `nothing`, so that what names bind to is defined on
two small types and not on all trees.

A hint may be written as a string, and that string may hold further strings. A string within the
text of another one is shorter than that text, so that reading a text of `n` characters meets at
most `n` of them inside each other; this is the bound given to `Hint.ofText`.

## Main definitions

* `Designator`, `Designator.ofNode`: names, members and calls
* `Illegible`: why a text cannot be read at all
* `Hint`, `Hint.ofNode`: type hints
-/

namespace Concordance.Binding

open Syntax Text

/-! ### Designators -/

/-- An expression that can denote something declared. -/
inductive Designator where
  | name (id : String)
  | member (value : Designator) (attr : String)
  /-- A call, with its argument if it has a single positional one. -/
  | call (callee argument : Designator)
  | unknown
deriving DecidableEq, Repr

/-- The designator that an expression is. An assignment expression and an awaited one count as
their value. -/
def Designator.ofNode : Node → Designator
  | .name _ id _ => .name id
  | .member _ value attr _ => .member (ofNode value) attr
  | .call _ callee [argument] _ => .call (ofNode callee) (ofNode argument)
  | .call _ callee _ _ => .call (ofNode callee) .unknown
  | .named _ _ value => ofNode value
  | .await _ value => ofNode value
  | _ => .unknown

/-! ### Hints -/

/-- Why a text cannot be read at all. -/
inductive Illegible where
  /-- It holds the null character. -/
  | nullCharacter
  /-- It holds halves of surrogate pairs, so that it cannot be handed on as octets. -/
  | halves (points : List Nat)
deriving DecidableEq, Repr

/-- The failure that reading such a text ends with. Blanks ahead of it are not read; those behind it
have no part in what is said. -/
def Illegible.failure : Illegible → Failure
  | nullCharacter => .value nullCharacterText
  | halves points => .unencodable (halvesText (points.dropWhile isBlankPoint))

/-- A type hint. -/
inductive Hint where
  | designator (d : Designator)
  /-- The second one counts where the first one says nothing. -/
  | either (first second : Hint)
  /-- The type itself, not a value of it. -/
  | typeOf (h : Hint)
  | nothing
  /-- A text that cannot be read at all. -/
  | unreadable (why : Illegible)
deriving DecidableEq, Repr

namespace Hint

/-- The generic names whose first argument is the type that is meant. -/
def transparentNames : List String :=
  ["Optional", "ClassVar", "Final", "Annotated", "Required", "NotRequired", "ReadOnly"]

/-- The last name of a generic type. -/
def genericName? : Node → Option String
  | .name _ id _ => some id
  | .member _ _ attr _ => some attr
  | _ => none

/-- The hint that a generic type of some name is with its arguments. -/
def generic (name : Option String) : List Hint → Hint
  | [] => .nothing
  | first :: rest =>
    match name with
    | none => .nothing
    | some name =>
      if name ∈ transparentNames then first
      else if name = "Union" then (first :: rest).foldr .either .nothing
      else if name = "Type" ∨ name = "type" then .typeOf first
      else .nothing

mutual

/-- The hint that an expression is; `text` gives those that are written as strings. -/
def ofNodeWith (text : String → Hint) : Node → Hint
  | .constant _ (.string s) => text s
  | .constant _ (.halved points) => .unreadable (.halves points)
  | .binary _ .bitOr left right => .either (ofNodeWith text left) (ofNodeWith text right)
  | .subscript _ type (.tuple _ items _) _ => generic (genericName? type) (ofNodesWith text items)
  | .subscript _ type argument _ => generic (genericName? type) [ofNodeWith text argument]
  | n => .designator (.ofNode n)

/-- The hints that expressions are. -/
def ofNodesWith (text : String → Hint) : List Node → List Hint
  | [] => []
  | n :: rest => ofNodeWith text n :: ofNodesWith text rest

end

/-- The hint that a text is, with up to `depth` texts inside each other. -/
def ofText : (depth : Nat) → String → Hint
  | 0, _ => .nothing
  | depth + 1, s =>
    match parseExpression (strip s) with
    | .ok n => ofNodeWith (ofText depth) n
    | .error .nullCharacter => .unreadable .nullCharacter
    | .error .malformed => .nothing

/-- The hint that an expression is. -/
def ofNode (n : Node) : Hint := ofNodeWith (fun s => ofText (s.length + 1) s) n

end Hint

end Concordance.Binding
