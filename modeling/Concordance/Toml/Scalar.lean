import Concordance.Decimal.Limit
import Concordance.Json.Reader
import Concordance.Toml.Value

/-!
# TOML scalars

Strings, numbers, dates and times as they are written in TOML. Each reader takes what it can from
the front of a text and gives back the rest.

## Main definitions

* `Toml.Fault`: why a text is no document
* `readString`: a string in any of its four forms
* `readMoment?`, `readNumber?`: dates, times and numbers
-/

namespace Concordance.Toml

/-- Why a text is no document. -/
inductive Fault where
  | malformed
  /-- A whole number has more digits than are converted. -/
  | longNumber (digits : Nat)
deriving DecidableEq, Repr

/-- A part at the front of a text, and the rest. -/
abbrev Taken (α : Type) := Except Fault (α × List Char)

/-! ### Characters -/

/-- Blanks within a line. -/
def isSpace (c : Char) : Bool := c = ' ' || c = '\t'

/-- Blanks and ends of lines. -/
def isGap (c : Char) : Bool := isSpace c || c = '\n'

/-- Whether a character may not stand in a string or comment; a line may end in some strings. -/
def isForbidden (lines : Bool) (c : Char) : Bool :=
  (c.toNat < 0x20 || c.toNat = 0x7F) && c ≠ '\t' && !(lines && c = '\n')

/-- Whether a character may stand in a key without quotes. -/
def isBare (c : Char) : Bool := c.isAlphanum || c = '-' || c = '_'

/-! ### Strings -/

/-- A character written by its number in `size` hexadecimal digits. -/
def readCodePoint (size : Nat) (cs : List Char) : Option (List Char × List Char) :=
  let digits := cs.take size
  match digits.mapM Json.hexDigit? with
  | none => none
  | some values =>
    let n := values.foldl (fun n d => n * 16 + d) 0
    if digits.length = size ∧ n.isValidChar then some ([Char.ofNat n], cs.drop size) else none

/-- What stands behind a backslash: the characters meant, and the rest. At the end of a line of a
string of several lines it takes away all blanks up to the next text. -/
def readEscape (lines : Bool) (cs : List Char) : Option (List Char × List Char) :=
  match cs with
  | [] => none
  | c :: rest =>
    if lines && c = '\n' then some ([], rest.dropWhile isGap)
    else if lines && isSpace c then
      match rest.dropWhile isSpace with
      | [] => some ([], [])
      | '\n' :: rest => some ([], rest.dropWhile isGap)
      | _ => none
    else
      match c with
      | 'u' => readCodePoint 4 rest
      | 'U' => readCodePoint 8 rest
      | 'b' => some (['\x08'], rest)
      | 't' => some (['\t'], rest)
      | 'n' => some (['\n'], rest)
      | 'f' => some (['\x0c'], rest)
      | 'r' => some (['\r'], rest)
      | '"' => some (['"'], rest)
      | '\\' => some (['\\'], rest)
      | _ => none

/-- Up to two quotes that stand right behind the closing three belong to the string. -/
def extraQuotes (quote : Char) (acc : List Char) (cs : List Char) : List Char × List Char :=
  let extra := (cs.takeWhile (· = quote)).take 2
  (acc.reverse ++ extra, cs.drop extra.length)

/-- The rest of a string with escapes; `acc` holds what was read, last first. -/
def readBasic (lines : Bool) : (fuel : Nat) → (acc cs : List Char) → Taken (List Char)
  | 0, _, _ => .error .malformed
  | _, _, [] => .error .malformed
  | fuel + 1, acc, c :: rest =>
    if c = '"' then
      if lines then
        match rest with
        | '"' :: '"' :: rest => .ok (extraQuotes '"' acc rest)
        | rest => readBasic lines fuel (c :: acc) rest
      else .ok (acc.reverse, rest)
    else if c = '\\' then
      match readEscape lines rest with
      | some (meant, rest) => readBasic lines fuel (meant.reverse ++ acc) rest
      | none => .error .malformed
    else if isForbidden lines c then .error .malformed
    else readBasic lines fuel (c :: acc) rest

/-- The rest of a string without escapes; `acc` holds what was read, last first. -/
def readLiteral (lines : Bool) (acc : List Char) : List Char → Taken (List Char)
  | [] => .error .malformed
  | '\'' :: rest =>
    if lines then
      match rest with
      | '\'' :: '\'' :: rest => .ok (extraQuotes '\'' acc rest)
      | rest => readLiteral lines ('\'' :: acc) rest
    else .ok (acc.reverse, rest)
  | c :: rest =>
    if isForbidden lines c then .error .malformed else readLiteral lines (c :: acc) rest

/-- A line that ends right behind the opening quotes does not count. -/
def dropFirstLine : List Char → List Char
  | '\n' :: rest => rest
  | cs => cs

/-- A string on one line. -/
def readLineString (cs : List Char) : Taken (List Char) :=
  match cs with
  | '"' :: rest => readBasic false (rest.length + 1) [] rest
  | '\'' :: rest => readLiteral false [] rest
  | _ => .error .malformed

/-- A string. -/
def readString (cs : List Char) : Taken (List Char) :=
  match cs with
  | '"' :: '"' :: '"' :: rest => readBasic true (rest.length + 1) [] (dropFirstLine rest)
  | '\'' :: '\'' :: '\'' :: rest => readLiteral true [] (dropFirstLine rest)
  | cs => readLineString cs

/-! ### Dates and times -/

/-- A number of exactly `size` digits. -/
def readFixed (size : Nat) (cs : List Char) : Option (Nat × List Char) :=
  let digits := cs.take size
  if digits.length = size ∧ digits.all Char.isDigit then
    some (Json.digitsValue digits, cs.drop size)
  else none

/-- A number of two digits in a range. -/
def readTwo (low high : Nat) (cs : List Char) : Option (Nat × List Char) :=
  (readFixed 2 cs).filter fun r => low ≤ r.1 && r.1 ≤ high

/-- Drop a character that has to be there. -/
def dropChar (c : Char) : List Char → Option (List Char)
  | [] => none
  | a :: rest => if a = c then some rest else none

/-- A number with zeros in front. -/
def padded (size n : Nat) : String :=
  let s := toString n
  String.ofList (List.replicate (size - s.length) '0') ++ s

/-- The fraction of a second in millionths. -/
def readFraction (cs : List Char) : Nat × List Char :=
  match cs with
  | '.' :: rest =>
    let digits := rest.takeWhile Char.isDigit
    if digits.isEmpty then (0, cs)
    else
      let kept := digits.take 6
      (Json.digitsValue kept * Nat.pow 10 (6 - kept.length), rest.drop digits.length)
  | _ => (0, cs)

/-- A time of the day, as it is shown. -/
def readTime (cs : List Char) : Option (String × List Char) := do
  let (h, cs) ← readTwo 0 23 cs
  let (m, cs) ← readTwo 0 59 (← dropChar ':' cs)
  let (s, cs) ← readTwo 0 59 (← dropChar ':' cs)
  let (fraction, cs) := readFraction cs
  some (padded 2 h ++ ":" ++ padded 2 m ++ ":" ++ padded 2 s ++
    (if fraction = 0 then "" else "." ++ padded 6 fraction), cs)

/-- The distance of a time from the universal one, as it is shown; empty if none is given. -/
def readOffset (cs : List Char) : String × List Char :=
  match cs with
  | c :: rest =>
    if c = 'Z' || c = 'z' then ("+00:00", rest)
    else if c = '+' || c = '-' then
      let found := do
        let (h, cs) ← readTwo 0 23 rest
        let (m, cs) ← readTwo 0 59 (← dropChar ':' cs)
        let sign := if h = 0 ∧ m = 0 then "+" else c.toString
        some (sign ++ padded 2 h ++ ":" ++ padded 2 m, cs)
      found.getD ("", cs)
    else ("", cs)
  | [] => ("", [])

/-- The number of days of a month. -/
def daysOf (year month : Nat) : Nat :=
  if month = 2 then
    if year % 4 = 0 ∧ (year % 100 ≠ 0 ∨ year % 400 = 0) then 29 else 28
  else if month = 4 ∨ month = 6 ∨ month = 9 ∨ month = 11 then 30
  else 31

/-- A day, as it is shown, with whether it exists. -/
def readDay (cs : List Char) : Option ((String × Bool) × List Char) := do
  let (y, cs) ← readFixed 4 cs
  let (m, cs) ← readTwo 1 12 (← dropChar '-' cs)
  let (d, cs) ← readTwo 1 31 (← dropChar '-' cs)
  some ((padded 4 y ++ "-" ++ padded 2 m ++ "-" ++ padded 2 d,
    decide (1 ≤ y ∧ d ≤ daysOf y m)), cs)

/-- A date, a time or both, if there is one. A day that does not exist is a fault. -/
def readMoment? (cs : List Char) : Option (Taken Value) :=
  match readDay cs with
  | some ((day, isReal), rest) =>
    let both := do
      let c ← rest.head?
      let (time, rest) ← if c = 'T' || c = 't' || c = ' ' then readTime (rest.drop 1) else none
      let (offset, rest) := readOffset rest
      some (Value.moment .dateTime (day ++ " " ++ time ++ offset), rest)
    some <|
      if isReal then .ok (both.getD (.moment .date day, rest)) else .error .malformed
  | none => (readTime cs).map fun r => .ok (.moment .time r.1, r.2)

/-! ### Numbers -/

/-- Digits of a kind with single underscores between them; `acc` holds those read, last first. -/
def readDigitsFrom (isDigit : Char → Bool) (acc : List Char) : List Char → List Char × List Char
  | '_' :: c :: rest =>
    if isDigit c then readDigitsFrom isDigit (c :: acc) rest else (acc.reverse, '_' :: c :: rest)
  | c :: rest =>
    if isDigit c then readDigitsFrom isDigit (c :: acc) rest else (acc.reverse, c :: rest)
  | [] => (acc.reverse, [])

/-- Digits of a kind, at least one. -/
def readDigits (isDigit : Char → Bool) (cs : List Char) : Option (List Char × List Char) :=
  match cs with
  | c :: rest => if isDigit c then some (readDigitsFrom isDigit [c] rest) else none
  | [] => none

/-- Whether a character is a digit of a base. -/
def isDigitOf (base : Nat) (c : Char) : Bool := ((Json.hexDigit? c).filter (· < base)).isSome

/-- A whole number of another base. -/
def readBased (cs : List Char) : Option (Value × List Char) :=
  let based (base : Nat) (cs : List Char) : Option (Value × List Char) :=
    (readDigits (isDigitOf base) cs).map fun (ds, rest) =>
      (.int (ds.foldl (fun n d => n * base + (Json.hexDigit? d).getD 0) 0), rest)
  match cs with
  | '0' :: 'x' :: rest => based 16 rest
  | '0' :: 'b' :: rest => based 2 rest
  | '0' :: 'o' :: rest => based 8 rest
  | _ => none

/-- The decimal places of a number, if there are any. -/
def readPlaces (cs : List Char) : Option (List Char) × List Char :=
  match cs with
  | '.' :: rest =>
    match readDigits Char.isDigit rest with
    | some (ds, rest) => (some ds, rest)
    | none => (none, cs)
  | _ => (none, cs)

/-- The exponent of a number, if there is one. -/
def readExponent (cs : List Char) : Option Int × List Char :=
  match cs with
  | c :: rest =>
    if c = 'e' || c = 'E' then
      let (negative, digits) : Bool × List Char :=
        match rest with
        | '+' :: r => (false, r)
        | '-' :: r => (true, r)
        | r => (false, r)
      match readDigits Char.isDigit digits with
      | some (ds, rest) =>
        let n : Int := Json.digitsValue ds
        (some (if negative then -n else n), rest)
      | none => (none, cs)
    else (none, cs)
  | [] => (none, [])

/-- The whole part of a decimal number: a zero, or digits that do not start with one. -/
def readWhole (cs : List Char) : Option (List Char × List Char) :=
  match cs with
  | '0' :: rest => some (['0'], rest)
  | cs => readDigits Char.isDigit cs

/-- A decimal number behind its sign. -/
def readDecimal (negative : Bool) (cs : List Char) : Option (Taken Value) :=
  (readWhole cs).map fun (whole, rest) =>
    let (places, rest) := readPlaces rest
    let (exponent, rest) := readExponent rest
    if places.isNone && exponent.isNone then
      if Decimal.mostDigits < whole.length then .error (.longNumber whole.length)
      else
        let n : Int := Json.digitsValue whole
        .ok (.int (if negative then -n else n), rest)
    else
      let digits := whole ++ places.getD []
      .ok (.float (Json.floatOf negative (Json.digitsValue digits)
        (exponent.getD 0 - (places.getD []).length)), rest)

/-- The numbers that are words. -/
def readSpecial (negative : Bool) (cs : List Char) : Option (Taken Value) :=
  match cs with
  | 'i' :: 'n' :: 'f' :: rest =>
    some (.ok (.float (if negative then -1.0 / 0.0 else 1.0 / 0.0), rest))
  | 'n' :: 'a' :: 'n' :: rest => some (.ok (.float (0.0 / 0.0), rest))
  | _ => none

/-- A number, if there is one. -/
def readNumber? (cs : List Char) : Option (Taken Value) :=
  match readBased cs with
  | some r => some (.ok r)
  | none =>
    match cs with
    | '+' :: rest => (readDecimal false rest).or (readSpecial false rest)
    | '-' :: rest => (readDecimal true rest).or (readSpecial true rest)
    | cs => (readDecimal false cs).or (readSpecial false cs)

end Concordance.Toml
