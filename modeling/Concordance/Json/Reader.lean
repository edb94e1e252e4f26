import Concordance.Json.Value

/-!
# Reading JSON

A reader for the grammar of JSON. Whole numbers stay whole; a number with a point or an exponent
is read as floating point. Escapes of surrogate pairs are joined.

## Main definitions

* `Json.parse?`: the value of a text
-/

namespace Concordance.Json

/-- Whether a character may stand between tokens. -/
def isGap (c : Char) : Bool := c = ' ' || c = '\n' || c = '\r' || c = '\t'

/-- The value of a hexadecimal digit. -/
def hexDigit? (c : Char) : Option Nat :=
  if c.isDigit then some (c.toNat - 48)
  else if 'a' ≤ c ∧ c ≤ 'f' then some (c.toNat - 87)
  else if 'A' ≤ c ∧ c ≤ 'F' then some (c.toNat - 55)
  else none

/-- Four hexadecimal digits. -/
def readUnit : List Char → Option (Nat × List Char)
  | a :: b :: c :: d :: rest => do
    let a ← hexDigit? a
    let b ← hexDigit? b
    let c ← hexDigit? c
    let d ← hexDigit? d
    some (((a * 16 + b) * 16 + c) * 16 + d, rest)
  | _ => none

/-- A character written as one code unit or as a pair of them. -/
def readEscapedChar (cs : List Char) : Option (Char × List Char) := do
  let (u, rest) ← readUnit cs
  if 0xD800 ≤ u ∧ u < 0xDC00 then
    match rest with
    | '\\' :: 'u' :: more =>
      let (v, rest) ← readUnit more
      if 0xDC00 ≤ v ∧ v < 0xE000 then
        some (Char.ofNat (0x10000 + (u - 0xD800) * 0x400 + (v - 0xDC00)), rest)
      else none
    | _ => none
  else some (Char.ofNat u, rest)

/-- The rest of a text up to its closing quote; `acc` holds what was read, last first. -/
def readChars : Nat → List Char → List Char → Option (String × List Char)
  | 0, _, _ => none
  | fuel + 1, acc, cs =>
    match cs with
    | '"' :: rest => some (String.ofList acc.reverse, rest)
    | '\\' :: 'u' :: rest =>
      match readEscapedChar rest with
      | some (c, rest) => readChars fuel (c :: acc) rest
      | none => none
    | '\\' :: e :: rest =>
      match e with
      | '"' => readChars fuel ('"' :: acc) rest
      | '\\' => readChars fuel ('\\' :: acc) rest
      | '/' => readChars fuel ('/' :: acc) rest
      | 'b' => readChars fuel ('\x08' :: acc) rest
      | 'f' => readChars fuel ('\x0c' :: acc) rest
      | 'n' => readChars fuel ('\n' :: acc) rest
      | 'r' => readChars fuel ('\r' :: acc) rest
      | 't' => readChars fuel ('\t' :: acc) rest
      | _ => none
    | c :: rest => readChars fuel (c :: acc) rest
    | [] => none

/-- The value of decimal digits. -/
def digitsValue (cs : List Char) : Nat := cs.foldl (fun n c => n * 10 + (c.toNat - 48)) 0

/-- A floating point number from its digits and decimal exponent. The exponents at which every
number is too large or too small are not worked out. -/
def floatOf (negative : Bool) (digits : Nat) (exponent : Int) : Float :=
  let size : Int := (toString digits).length + exponent
  let x :=
    if digits = 0 ∨ size < -400 then 0.0
    else if 400 < size then 1.0 / 0.0
    else if exponent < 0 then Float.ofScientific digits true (-exponent).toNat
    else Float.ofScientific digits false exponent.toNat
  if negative then -x else x

/-- The exponent of a number, if there is one. -/
def readExponent (cs : List Char) : Option Int × List Char :=
  match cs with
  | c :: more =>
    if c = 'e' || c = 'E' then
      let (negative, more) :=
        match more with
        | '-' :: m => (true, m)
        | '+' :: m => (false, m)
        | m => (false, m)
      let e := digitsValue (more.takeWhile Char.isDigit)
      (some (if negative then -(e : Int) else e), more.dropWhile Char.isDigit)
    else (none, cs)
  | [] => (none, cs)

/-- A number without its sign. -/
def readNumber (negative : Bool) (cs : List Char) : Option (Value × List Char) :=
  let whole := cs.takeWhile Char.isDigit
  let rest := cs.dropWhile Char.isDigit
  let (places, rest, pointed) :=
    match rest with
    | '.' :: more => (more.takeWhile Char.isDigit, more.dropWhile Char.isDigit, true)
    | _ => ([], rest, false)
  let (exponent, rest) := readExponent rest
  let digits := digitsValue (whole ++ places)
  if whole.isEmpty then none
  else if pointed || exponent.isSome then
    some (.float (floatOf negative digits (exponent.getD 0 - places.length)), rest)
  else some (.int (if negative then -(digits : Int) else digits), rest)

mutual

/-- A value behind blanks. -/
def readValue : Nat → List Char → Option (Value × List Char)
  | 0, _ => none
  | fuel + 1, cs =>
    match cs.dropWhile isGap with
    | 'n' :: 'u' :: 'l' :: 'l' :: rest => some (.null, rest)
    | 't' :: 'r' :: 'u' :: 'e' :: rest => some (.bool true, rest)
    | 'f' :: 'a' :: 'l' :: 's' :: 'e' :: rest => some (.bool false, rest)
    | '"' :: rest => (readChars (rest.length + 1) [] rest).map fun r => (.string r.1, r.2)
    | '[' :: rest =>
      match rest.dropWhile isGap with
      | ']' :: rest => some (.array [], rest)
      | rest => readItems fuel [] rest
    | '{' :: rest =>
      match rest.dropWhile isGap with
      | '}' :: rest => some (.object [], rest)
      | rest => readFields fuel [] rest
    | '-' :: rest => readNumber true rest
    | rest => readNumber false rest

/-- The items of an array up to its end; `acc` holds those read, last first. -/
def readItems : Nat → List Value → List Char → Option (Value × List Char)
  | 0, _, _ => none
  | fuel + 1, acc, cs =>
    match readValue fuel cs with
    | none => none
    | some (v, rest) =>
      match rest.dropWhile isGap with
      | ',' :: rest => readItems fuel (v :: acc) rest
      | ']' :: rest => some (.array (v :: acc).reverse, rest)
      | _ => none

/-- The fields of an object up to its end; `acc` holds those read, last first. -/
def readFields : Nat → List (String × Value) → List Char → Option (Value × List Char)
  | 0, _, _ => none
  | fuel + 1, acc, cs =>
    match cs.dropWhile isGap with
    | '"' :: rest =>
      match readChars (rest.length + 1) [] rest with
      | none => none
      | some (k, rest) =>
        match rest.dropWhile isGap with
        | ':' :: rest =>
          match readValue fuel rest with
          | none => none
          | some (v, rest) =>
            match rest.dropWhile isGap with
            | ',' :: rest => readFields fuel ((k, v) :: acc) rest
            | '}' :: rest => some (.object ((k, v) :: acc).reverse, rest)
            | _ => none
        | _ => none
    | _ => none

end

/-- The value of a text, if it holds exactly one. -/
def parse? (s : String) : Option Value :=
  let cs := s.toList
  match readValue (cs.length + 1) cs with
  | some (v, rest) => if rest.all isGap then some v else none
  | none => none

end Concordance.Json
