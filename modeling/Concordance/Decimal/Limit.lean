/-!
# Long numbers

Between whole numbers and their decimal digits there is work that grows faster than the number of the
digits. Numbers of very many digits are therefore neither read nor written in decimal form. Forms to
a base that is a power of two have no limit.

## Main definitions

* `mostDigits`: the number of digits from which on this holds
* `tooLongToRead`, `tooLongToWrite`: how it is told
-/

namespace Concordance.Decimal

/-- The number of digits of the longest whole number that is read or written. -/
def mostDigits : Nat := 4300

/-- Whether a whole number can be written. -/
def isWritable (n : Nat) : Bool := n < Nat.pow 10 mostDigits

/-- The start of both wordings. -/
def limitText : String :=
  "Exceeds the limit (" ++ toString mostDigits ++ " digits) for integer string conversion"

/-- The end of both wordings. -/
def adviceText : String := "; use sys.set_int_max_str_digits() to increase the limit"

/-- The wording for a whole number with too many digits to be read. -/
def tooLongToRead (digits : Nat) : String :=
  limitText ++ ": value has " ++ toString digits ++ " digits" ++ adviceText

/-- The wording for a whole number with too many digits to be written. -/
def tooLongToWrite : String := limitText ++ adviceText

end Concordance.Decimal
