import Concordance.Decimal.Limit
import Concordance.Syntax.Tree

/-!
# Numbers

Numbers as they are written: decimal, hexadecimal, octal and binary whole numbers, decimals with a
point or an exponent, and imaginary ones. Single underscores may stand between digits. A number
may be followed directly by one of a few reserved words, by no other letter.

## Main definitions

* `readNumber?`: the number at the front of a text, and what follows it
-/

namespace Concordance.Syntax

/-- The value of a digit in any base up to sixteen. -/
def digitValue? (c : Char) : Option Nat :=
  if '0' ≤ c ∧ c ≤ '9' then some (c.toNat - 48)
  else if 'a' ≤ c ∧ c ≤ 'f' then some (c.toNat - 87)
  else if 'A' ≤ c ∧ c ≤ 'F' then some (c.toNat - 55)
  else none

/-- The value of a digit of a base. -/
def digitBelow? (base : Nat) (c : Char) : Option Nat :=
  (digitValue? c).filter (· < base)

/-- Digits read so far: how many, and their value. -/
structure Digits where
  count : Nat := 0
  value : Nat := 0

/-- Further digits of a base with single underscores between them. An underscore that no digit
follows is an error. -/
def readDigits? (base : Nat) (ds : Digits) : List Char → Option (Digits × List Char)
  | [] => some (ds, [])
  | '_' :: rest =>
    match rest with
    | [] => none
    | c :: rest =>
      match digitBelow? base c with
      | some d => readDigits? base ⟨ds.count + 1, ds.value * base + d⟩ rest
      | none => none
  | c :: rest =>
    match digitBelow? base c with
    | some d => readDigits? base ⟨ds.count + 1, ds.value * base + d⟩ rest
    | none => some (ds, c :: rest)

/-- The reserved words that may directly follow a number. -/
def wordsAfterNumber : List (List Char) :=
  ["and", "else", "for", "if", "in", "is", "or", "not"].map String.toList

/-- Whether a number may end in front of a text. -/
def numberMayEnd (cs : List Char) : Bool :=
  match cs with
  | [] => true
  | c :: _ =>
    if c.isAlphanum || c == '_' || 0x80 ≤ c.toNat then
      wordsAfterNumber.any fun w => w.isPrefixOf cs
    else true

/-- End a number in front of a text. -/
def endNumber? (value : Literal) (cs : List Char) : Option (Literal × List Char) :=
  if numberMayEnd cs then some (value, cs) else none

/-- A whole number in a base other than ten, behind its letter. -/
def readBased? (base : Nat) (cs : List Char) : Option (Literal × List Char) :=
  -- one underscore may stand between the letter and the first digit
  let cs := match cs with
    | '_' :: rest => rest
    | _ => cs
  match cs with
  | c :: rest =>
    match digitBelow? base c with
    | some d =>
      match readDigits? base ⟨1, d⟩ rest with
      | some (ds, rest) =>
        if rest.head?.any Char.isDigit then none else endNumber? (.int ds.value) rest
      | none => none
    | none => none
  | [] => none

/-- Whether the text goes on with digits of an exponent, sign and all. An exponent with a sign
needs a digit behind it; without a sign and a digit it is none. -/
def readExponent? (cs : List Char) : Option (Option Int × List Char) :=
  match cs with
  | e :: rest =>
    if e = 'e' || e = 'E' then
      let digits := fun (negative : Bool) (c : Char) (rest : List Char) =>
        (readDigits? 10 ⟨1, c.toNat - 48⟩ rest).map fun (ds, rest) =>
          (some (if negative then -(ds.value : Int) else ds.value), rest)
      match rest with
      | '+' :: c :: more => if c.isDigit then digits false c more else none
      | '-' :: c :: more => if c.isDigit then digits true c more else none
      | c :: more =>
        if c.isDigit then digits false c more
        else if c = '+' || c = '-' then none
        else some (none, cs)
      | [] => some (none, cs)
    else some (none, cs)
  | [] => some (none, cs)

/-- What may follow the digits of a decimal: an exponent and the letter of imaginary numbers. A
number with nothing of the kind is whole; there the digits must not start with a zero unless they
are all zeros, and there is a limit to their number. -/
def finishDecimal? (ds : Digits) (places : Option Nat) (leadingZero : Bool) (cs : List Char) :
    Option (Literal × List Char) :=
  match readExponent? cs with
  | none => none
  | some (exponent, rest) =>
    let scale := exponent.getD 0 - (places.getD 0 : Int)
    match rest with
    | 'j' :: rest => endNumber? (.imaginary ds.value scale) rest
    | 'J' :: rest => endNumber? (.imaginary ds.value scale) rest
    | _ =>
      if places.isSome || exponent.isSome then endNumber? (.decimal ds.value scale) rest
      else if leadingZero && ds.value != 0 then none
      else if Decimal.mostDigits < ds.count then none
      else endNumber? (.int ds.value) rest

/-- The number at the front of a text that starts with a digit or with a point and a digit. -/
def readNumber? (cs : List Char) : Option (Literal × List Char) :=
  match cs with
  | '0' :: 'x' :: rest => readBased? 16 rest
  | '0' :: 'X' :: rest => readBased? 16 rest
  | '0' :: 'o' :: rest => readBased? 8 rest
  | '0' :: 'O' :: rest => readBased? 8 rest
  | '0' :: 'b' :: rest => readBased? 2 rest
  | '0' :: 'B' :: rest => readBased? 2 rest
  | '.' :: rest =>
    match readDigits? 10 {} rest with
    | some (ds, rest) => finishDecimal? ds (some ds.count) false rest
    | none => none
  | c :: rest =>
    match readDigits? 10 ⟨1, c.toNat - 48⟩ rest with
    | none => none
    | some (ds, rest) =>
      match rest with
      | '.' :: d :: more =>
        if d.isDigit then
          match readDigits? 10 ⟨ds.count + 1, ds.value * 10 + (d.toNat - 48)⟩ more with
          | some (all, rest) => finishDecimal? all (some (all.count - ds.count)) false rest
          | none => none
        else finishDecimal? ds (some 0) false (d :: more)
      | ['.'] => finishDecimal? ds (some 0) false []
      | _ => finishDecimal? ds none (c = '0') rest
  | [] => none

end Concordance.Syntax
