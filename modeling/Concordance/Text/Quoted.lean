import Concordance.Text.HexTable
import Concordance.Text.PrintableTable
import Concordance.Text.Ranges

/-!
# Quoted texts

A text between quotes, on one line, as it is shown in messages. Single quotes are taken, unless the
text holds some and no double ones. Backslashes, the quote taken and all that cannot be shown are
escaped, characters by the shortest of three forms of hexadecimal numbers.

## Main definitions

* `isPrintable`: whether a character is shown as it is
* `quoteText`, `quoteOctets`: quoted texts and octets
-/

namespace Concordance.Text

/-- The characters beyond ASCII that are not shown as they are. -/
def unprintables : Array (Nat × Nat) := readRanges unprintableText

/-- Whether a character is shown as it is. -/
def isPrintable (c : Char) : Bool :=
  if c.toNat < 0x80 then 0x20 ≤ c.toNat && c.toNat ≠ 0x7F else !inRanges unprintables c.toNat

/-- A number in a fixed number of hexadecimal digits. -/
def hexDigits (size n : Nat) : List Char :=
  let digits := Nat.toDigits 16 n
  List.replicate (size - digits.length) '0' ++ digits

/-- The escape of a character by its number. -/
def escapeNumber (n : Nat) : List Char :=
  if n < 0x100 then '\\' :: 'x' :: hexDigits 2 n
  else if n < 0x10000 then '\\' :: 'u' :: hexDigits 4 n
  else '\\' :: 'U' :: hexDigits 8 n

/-- How a character is written between quotes of a kind. -/
def quotedChar (quote c : Char) : List Char :=
  if c = '\\' || c = quote then ['\\', c]
  else if c = '\n' then ['\\', 'n']
  else if c = '\r' then ['\\', 'r']
  else if c = '\t' then ['\\', 't']
  else if isPrintable c then [c]
  else escapeNumber c.toNat

/-- The quotes that are taken for characters. -/
def quoteFor (cs : List Char) : Char := if cs.contains '\'' && !cs.contains '"' then '"' else '\''

/-- A text between quotes. -/
def quoteText (s : String) : String :=
  let q := quoteFor s.toList
  String.ofList (q :: s.toList.flatMap (quotedChar q) ++ [q])

/-- How an octet is written between quotes of a kind. -/
def quotedOctet (quote : Char) (b : UInt8) : List Char :=
  if b < 0x80 then quotedChar quote (Char.ofNat b.toNat) else escapeNumber b.toNat

/-- Octets between quotes, marked as such. -/
def quoteOctets (octets : List UInt8) : String :=
  let q := quoteFor (octets.map fun b => Char.ofNat b.toNat)
  String.ofList ('b' :: q :: octets.flatMap (quotedOctet q) ++ [q])

end Concordance.Text
