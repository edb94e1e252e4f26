import Concordance.Decimal.Shortest
import Concordance.Json.Value

/-!
# Printing JSON

Three layouts: without any blanks, on one line with a blank behind each mark, and over several
lines with an indentation. Texts are written with the fewest escapes, or in ASCII alone.

## Main definitions

* `Json.quote`: a text in quotes
* `Json.Layout`, `Json.render`: a value as text
-/

namespace Concordance.Json

/-! ### Texts -/

/-- Which characters are written as they are. -/
inductive Charset where
  | unicode
  | ascii
deriving DecidableEq, Repr

/-- Four hexadecimal digits. -/
def hex4 (n : Nat) : List Char :=
  let digit := fun k => ((Nat.toDigits 16 (n / Nat.pow 16 k % 16)).head?.getD '0')
  [digit 3, digit 2, digit 1, digit 0]

/-- A code unit as an escape. -/
def unitEscape (n : Nat) : List Char := '\\' :: 'u' :: hex4 n

/-- One character within quotes. -/
def quoteChar (charset : Charset) (c : Char) : List Char :=
  match c with
  | '"' => ['\\', '"']
  | '\\' => ['\\', '\\']
  | '\n' => ['\\', 'n']
  | '\r' => ['\\', 'r']
  | '\t' => ['\\', 't']
  | '\x08' => ['\\', 'b']
  | '\x0c' => ['\\', 'f']
  | c =>
    let n := c.toNat
    if n < 0x20 then unitEscape n
    else if charset = .unicode ∨ n < 0x7F then [c]
    else if n < 0x10000 then unitEscape n
    else unitEscape (0xD800 + (n - 0x10000) / 0x400) ++ unitEscape (0xDC00 + (n - 0x10000) % 0x400)

/-- A text in quotes. -/
def quote (charset : Charset) (s : String) : String :=
  String.ofList ('"' :: (s.toList.flatMap (quoteChar charset) ++ ['"']))

/-! ### Layouts -/

/-- How the parts of a value are set apart. -/
inductive Layout where
  /-- No blanks at all. -/
  | compact
  /-- One line, a blank behind each comma and colon. -/
  | spaced
  /-- An item per line, indented by so many blanks for each level. -/
  | indented (width : Nat)
deriving DecidableEq, Repr

/-- What stands before the first item at a depth. -/
def Layout.opening (l : Layout) (depth : Nat) : String :=
  match l with
  | .indented w => "\n" ++ "".pushn ' ' (w * depth)
  | _ => ""

/-- What stands between two items at a depth. -/
def Layout.separator (l : Layout) (depth : Nat) : String :=
  match l with
  | .compact => ","
  | .spaced => ", "
  | .indented _ => "," ++ l.opening depth

/-- What stands between the name and the value of a field. -/
def Layout.colon : Layout → String
  | .compact => ":"
  | _ => ": "

/-- The text of a floating point number; infinities and the undefined value have names. -/
def numberText (x : Float) : String :=
  if x.isNaN then "NaN"
  else if x.isInf then (if x < 0 then "-Infinity" else "Infinity")
  else Decimal.text x

mutual

/-- A value at a depth. -/
def renderAt (charset : Charset) (l : Layout) (depth : Nat) : Value → String
  | .null => "null"
  | .bool b => if b then "true" else "false"
  | .int n => toString n
  | .float x => numberText x
  | .string s => quote charset s
  | .array [] => "[]"
  | .array (v :: rest) =>
    "[" ++ l.opening (depth + 1) ++ renderAt charset l (depth + 1) v ++
      renderItems charset l (depth + 1) rest ++ l.opening depth ++ "]"
  | .object [] => "\x7b\x7d"
  | .object ((k, v) :: rest) =>
    "\x7b" ++ l.opening (depth + 1) ++ quote charset k ++ l.colon ++
      renderAt charset l (depth + 1) v ++ renderFields charset l (depth + 1) rest ++
      l.opening depth ++ "\x7d"

/-- Further items, each behind a separator. -/
def renderItems (charset : Charset) (l : Layout) (depth : Nat) : List Value → String
  | [] => ""
  | v :: rest =>
    l.separator depth ++ renderAt charset l depth v ++ renderItems charset l depth rest

/-- Further fields, each behind a separator. -/
def renderFields (charset : Charset) (l : Layout) (depth : Nat) :
    List (String × Value) → String
  | [] => ""
  | (k, v) :: rest =>
    l.separator depth ++ quote charset k ++ l.colon ++ renderAt charset l depth v ++
      renderFields charset l depth rest

end

/-- A value as text. -/
def render (charset : Charset) (l : Layout) (v : Value) : String := renderAt charset l 0 v

end Concordance.Json
