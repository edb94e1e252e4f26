import Concordance.Text.HexTable
import Concordance.Text.IdentifierTable
import Concordance.Text.Ranges

/-!
# Identifiers

What a name of the analysed language is made of: a letter or underscore, then letters, digits,
marks and underscores, by the identifier properties of Unicode.

## Main definitions

* `isIdentifierStart`, `isIdentifierContinue`: one character
* `isIdentifier`: a whole name
-/

namespace Concordance.Text

/-- The characters beyond ASCII that a name may start with. -/
def identifierStarts : Array (Nat × Nat) := readRanges identifierStartText

/-- The characters beyond ASCII that a name may go on with. -/
def identifierContinues : Array (Nat × Nat) := readRanges identifierContinueText

/-- Whether a name may start with a character. -/
def isIdentifierStart (c : Char) : Bool :=
  if c.toNat < 0x80 then c.isAlpha || c == '_' else inRanges identifierStarts c.toNat

/-- Whether a name may go on with a character. -/
def isIdentifierContinue (c : Char) : Bool :=
  if c.toNat < 0x80 then c.isAlphanum || c == '_' else inRanges identifierContinues c.toNat

/-- Whether characters are a name. -/
def isIdentifier : List Char → Bool
  | [] => false
  | c :: rest => isIdentifierStart c && rest.all isIdentifierContinue

theorem isIdentifier_nil : isIdentifier [] = false := rfl

end Concordance.Text
