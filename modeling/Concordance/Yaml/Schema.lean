import Concordance.Decimal.Shortest
import Concordance.Text.Blank
import Concordance.Text.Lowercase
import Concordance.Text.Quoted
import Concordance.Yaml.Moment
import Concordance.Yaml.Value

/-!
# Types of YAML scalars

The type that a plain scalar has by the way it is written, and the values of scalars by their types.
A type that is asked for by name need not fit what is written, so that reading a value can fail.

## Main definitions

* `Kind`: the types there are values for
* `plainTag`: the name of the type of a plain scalar
* `readScalar`: the value of a scalar
-/

namespace Concordance.Yaml

/-- The start of the names of all types. -/
def tagStart : String := "tag:yaml.org,2002:"

/-- The types there are values for. -/
inductive Kind where
  | null
  | bool
  | int
  | float
  | binary
  | timestamp
  | omap
  | pairs
  | set
  | str
  | seq
  | map
deriving DecidableEq, Repr

/-- The types by the ends of their names. -/
def Kind.names : List (String × Kind) :=
  [("null", null), ("bool", bool), ("int", int), ("float", float), ("binary", binary),
    ("timestamp", timestamp), ("omap", omap), ("pairs", pairs), ("set", set), ("str", str),
    ("seq", seq), ("map", map)]

/-- The type of a name. -/
def Kind.ofTag? (tag : String) : Option Kind :=
  (names.find? fun p => tagStart ++ p.1 = tag).map Prod.snd

/-! ### Plain scalars -/

/-- A text without a line feed at its end. -/
def dropFinalBreak (cs : List Char) : List Char :=
  if cs.getLast? = some '\n' then cs.dropLast else cs

/-- A text without a sign in front. -/
def dropSign : List Char → List Char
  | '+' :: rest => rest
  | '-' :: rest => rest
  | cs => cs

/-- Whether a character is a decimal digit or fills the room between digits. -/
def isSpacedDigit (c : Char) : Bool := c.isDigit || c = '_'

/-- Whether a text consists of characters of a kind, at least one. -/
def isRun (p : Char → Bool) (cs : List Char) : Bool := !cs.isEmpty && cs.all p

/-- Whether a text is a digit followed by digits with room between them. -/
def isSpacedNumber : List Char → Bool
  | c :: rest => c.isDigit && rest.all isSpacedDigit
  | [] => false

/-- Whether a text is below sixty, in one or two digits. -/
def isSixtieth : List Char → Bool
  | [a] => a.isDigit
  | [a, b] => '0' ≤ a && a ≤ '5' && b.isDigit
  | _ => false

/-- The parts of a text between colons; `acc` holds the part being read, last character first. -/
def splitColons (acc : List Char) : List Char → List (List Char)
  | [] => [acc.reverse]
  | c :: rest => if c = ':' then acc.reverse :: splitColons [] rest else splitColons (c :: acc) rest

/-- Whether a text is a number to the base of sixty, with the first part of a kind. -/
def isSexagesimal (first : List Char → Bool) (cs : List Char) : Bool :=
  match splitColons [] cs with
  | a :: rest => first a && !rest.isEmpty && rest.all isSixtieth
  | [] => false

/-- Whether a text starts with a digit other than zero. -/
def startsAboveZero (cs : List Char) : Bool := cs.head?.any fun c => c.isDigit && c ≠ '0'

/-- Whether a text writes a whole number. -/
def isIntText (cs : List Char) : Bool :=
  let cs := dropSign cs
  let above := fun cs => startsAboveZero cs && isSpacedNumber cs
  cs = ['0'] || above cs || isSexagesimal above cs ||
    match cs with
    | '0' :: 'b' :: rest => isRun (fun c => c = '0' || c = '1' || c = '_') rest
    | '0' :: 'x' :: rest => isRun (fun c => (Json.hexDigit? c).isSome || c = '_') rest
    | '0' :: rest => isRun (fun c => ('0' ≤ c && c ≤ '7') || c = '_') rest
    | _ => false

/-- Whether a text is nothing or an exponent, which has a sign. -/
def isExponent : List Char → Bool
  | [] => true
  | e :: sign :: digits =>
    (e = 'e' || e = 'E') && (sign = '+' || sign = '-') && isRun Char.isDigit digits
  | _ => false

/-- A text in front of its first point, and what follows the point. -/
def splitPoint? (cs : List Char) : Option (List Char × List Char) :=
  match cs.dropWhile (· ≠ '.') with
  | _ :: rest => some (cs.takeWhile (· ≠ '.'), rest)
  | [] => none

/-- Whether a text writes a number with a point. -/
def isFloatText (cs : List Char) : Bool :=
  let unsigned := dropSign cs
  let word := fun cs => [".inf", ".Inf", ".INF"].contains (String.ofList cs)
  word unsigned || [".nan", ".NaN", ".NAN"].contains (String.ofList cs) ||
    match splitPoint? unsigned with
    | none => false
    | some (whole, rest) =>
      if whole.isEmpty then
        cs = unsigned && rest.head?.any Char.isDigit && isExponent (rest.dropWhile isSpacedDigit)
      else
        (isSpacedNumber whole && isExponent (rest.dropWhile isSpacedDigit)) ||
          (isSexagesimal isSpacedNumber whole && rest.all isSpacedDigit)

/-- The words that stand for the two truth values. -/
def truths : List (String × Bool) :=
  [("yes", true), ("no", false), ("true", true), ("false", false), ("on", true), ("off", false)]

/-- Whether a text is one of these words in small letters, with a capital or in capitals. -/
def isTruthText (s : String) : Bool :=
  truths.any fun (word, _) => s = word || s = word.capitalize || s = word.toUpper

/-- Whether a text writes a date or time. -/
def isMomentText (cs : List Char) : Bool :=
  (Moment.ofText? cs).any fun m => m.isFull || m.clock.isSome

/-- The name of the type of a plain scalar. -/
def plainTag (text : String) : String :=
  let cs := dropFinalBreak text.toList
  let s := String.ofList cs
  tagStart ++
    if isTruthText s then "bool"
    else if isFloatText cs then "float"
    else if isIntText cs then "int"
    else if s = "<<" then "merge"
    else if text = "" || s = "~" || s = "null" || s = "Null" || s = "NULL" then "null"
    else if isMomentText cs then "timestamp"
    else if s = "=" then "value"
    else if s = "!" || s = "&" || s = "*" then "yaml"
    else "str"

/-! ### Values -/

/-- A fault that lies in the value of a text. -/
def badValue {α : Type} (text : String) : Except Fault α := .error (.failed (.value text))

/-- The start of a whole number that tells its base. -/
def baseMark? (base : Nat) : Option Char :=
  if base = 16 then some 'x' else if base = 8 then some 'o' else if base = 2 then some 'b' else none

/-- A text without the mark of its base. -/
def dropBaseMark (base : Nat) (cs : List Char) : List Char :=
  match cs with
  | '0' :: m :: rest => if some m.toLower = baseMark? base then rest else cs
  | _ => cs

/-- A whole number to a base, with blanks around it and a sign. -/
def readWhole (base : Nat) (cs : List Char) : Except Fault Int :=
  let bare := Text.stripChars cs
  let digits := dropBaseMark base (dropSign bare)
  if digits.isEmpty || !digits.all (Toml.isDigitOf base) then
    badValue ("invalid literal for int() with base " ++ toString base ++ ": " ++
      Text.quoteText (String.ofList cs))
  else if base = 10 && Decimal.mostDigits < digits.length then
    badValue (Decimal.tooLongToRead digits.length)
  else
    let n : Int := digits.foldl (fun n d => n * base + (Json.hexDigit? d).getD 0) 0
    .ok (if bare.head? = some '-' then -n else n)

/-- A text without the room between digits and without its sign, and whether it is negative; there
has to be something to look at. -/
def takeSign (cs : List Char) : Except Fault (Bool × List Char) :=
  match cs.filter (· ≠ '_') with
  | [] => .error (.failed (.place "string index out of range"))
  | c :: rest =>
    .ok (c = '-', if c = '-' || c = '+' then rest else c :: rest)

/-- A whole number to the base of sixty. -/
def readSixtieths (cs : List Char) : Except Fault Int := do
  let parts ← (splitColons [] cs).mapM (readWhole 10)
  pure (parts.foldl (fun n part => n * 60 + part) 0)

/-- A whole number. -/
def readInt (cs : List Char) : Except Fault Value := do
  let (negative, cs) ← takeSign cs
  let n ←
    match cs with
    | [] => throw (.failed (.place "string index out of range"))
    | ['0'] => pure 0
    | '0' :: 'b' :: rest => readWhole 2 rest
    | '0' :: 'x' :: rest => readWhole 16 rest
    | '0' :: _ => readWhole 8 cs
    | cs => if cs.contains ':' then readSixtieths cs else readWhole 10 cs
  pure (.int (if negative then -n else n))

/-- A number in digits, with a point and an exponent if there are any. -/
def readDigits? (negative : Bool) (cs : List Char) : Option Float :=
  let whole := cs.takeWhile Char.isDigit
  let rest := cs.dropWhile Char.isDigit
  let (places, rest) :=
    match rest with
    | '.' :: more => (more.takeWhile Char.isDigit, more.dropWhile Char.isDigit)
    | _ => ([], rest)
  let digits := whole ++ places
  let value := fun (exponent : Int) =>
    some (Json.floatOf negative (Json.digitsValue digits) (exponent - places.length))
  if digits.isEmpty then none
  else
    match rest with
    | [] => value 0
    | e :: more =>
      let size := dropSign more
      if (e = 'e' || e = 'E') && isRun Char.isDigit size then
        let n : Int := Json.digitsValue size
        value (if more.head? = some '-' then -n else n)
      else none

/-- A number, with blanks around it and a sign. -/
def readFloatText (cs : List Char) : Except Fault Float :=
  let bare := Text.stripChars cs
  let negative := bare.head? = some '-'
  let unsigned := dropSign bare
  let word := String.ofList (unsigned.map Char.toLower)
  if word = "inf" || word = "infinity" then .ok (if negative then -1.0 / 0.0 else 1.0 / 0.0)
  else if word = "nan" then .ok (0.0 / 0.0)
  else
    match readDigits? negative unsigned with
    | some x => .ok x
    | none =>
      badValue ("could not convert string to float: " ++ Text.quoteText (String.ofList cs))

/-- Whole numbers from this one on are above all numbers with a point. -/
def floatBound : Nat := Nat.pow 2 1024 - Nat.pow 2 970

/-- A whole number as a number with a point. -/
def floatOfInt (n : Int) : Except Failure Float :=
  if floatBound ≤ n.natAbs then .error (.overflow "int too large to convert to float")
  else .ok (Json.floatOf (n < 0) n.natAbs 0)

/-- The sum of parts to the base of sixty, the last one first. -/
def sumSixtieths (total : Float) (base : Nat) : List Float → Except Fault Float
  | [] => .ok total
  | x :: rest =>
    match floatOfInt base with
    | .ok b => sumSixtieths (total + x * b) (base * 60) rest
    | .error f => .error (.failed f)

/-- A number with a point. -/
def readFloat (text : String) : Except Fault Value := do
  let (negative, cs) ← takeSign (Text.lower text).toList
  let x ←
    if cs = ".inf".toList then pure (1.0 / 0.0)
    else if cs = ".nan".toList then return .float (0.0 / 0.0)
    else if cs.contains ':' then do
      sumSixtieths 0.0 1 (← (splitColons [] cs).mapM readFloatText).reverse
    else readFloatText cs
  pure (.float (if negative then -x else x))

/-- The value of a digit to the base of sixty-four. -/
def isBase64 (c : Char) : Bool := c.isAlphanum || c = '+' || c = '/'

/-- Whether octets are written completely: groups of four characters, the last of which may be
filled up. Other characters do not count. -/
def isComplete64 (place fill : Nat) : List Char → Bool
  | [] => place = 0
  | c :: rest =>
    if c = '=' then
      if 2 ≤ place then
        if 4 ≤ place + fill + 1 then true else isComplete64 place (fill + 1) rest
      else isComplete64 place fill rest
    else if isBase64 c then isComplete64 ((place + 1) % 4) 0 rest
    else isComplete64 place fill rest

/-- Octets. -/
def readBinary (cs : List Char) : Except Fault Value :=
  if cs.all (fun c => c.toNat < 0x80) && isComplete64 0 0 cs then .ok (.other (String.ofList cs))
  else .error .malformed

/-- A truth value. -/
def readTruth (text : String) : Except Fault Value :=
  let word := Text.lower text
  match truths.lookup word with
  | some b => .ok (.bool b)
  | none => .error (.failed (.key (Text.quoteText word)))

/-- A date or time. -/
def readTimestamp (text : String) : Except Fault Value :=
  match Moment.ofText? (dropFinalBreak text.toList) with
  | some m => (m.check).map fun _ => .other text
  | none => .error (.failed (.part "'NoneType' object has no attribute 'groupdict'"))

/-- The value of a scalar of a type; collections are none. -/
def readScalar (kind : Kind) (text : String) : Except Fault Value :=
  match kind with
  | .null => .ok .null
  | .bool => readTruth text
  | .int => readInt text.toList
  | .float => readFloat text
  | .binary => readBinary text.toList
  | .timestamp => readTimestamp text
  | .str => .ok (.string text)
  | _ => .error .malformed

end Concordance.Yaml
