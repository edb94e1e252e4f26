import Concordance.Failure
import Concordance.Yaml.Cursor

/-!
# YAML tokens

The tokens of a YAML text, and why reading one fails.

## Main definitions

* `Token`: the tokens
* `Fault`: why a text is no document
-/

namespace Concordance.Yaml

/-- Why a text is no document. -/
inductive Fault where
  | malformed
  /-- The text is one, but a value in it does not exist. -/
  | failed (failure : Failure)
deriving DecidableEq, Repr

/-- A character was asked for by a number that none has. -/
def Fault.codePoint (n : Nat) : Fault :=
  .failed <|
    if n < 0x80000000 then .value "chr() arg not in range(0x110000)"
    else .overflow "signed integer is greater than maximum"

/-- The name of a type: the handle that its start is short for, and the rest. -/
structure TagName where
  handle : Option String
  suffix : String
deriving DecidableEq, Repr

/-- A YAML token. -/
inductive Token where
  | versionDirective (major minor : Nat)
  | tagDirective (handle start : String)
  | otherDirective
  | documentStart
  | documentEnd
  | blockSequenceStart
  | blockMappingStart
  | blockEnd
  | flowSequenceStart
  | flowSequenceEnd
  | flowMappingStart
  | flowMappingEnd
  | blockEntry
  | flowEntry
  | key
  | value
  | reference (name : String)
  | anchor (name : String)
  | tag (name : TagName)
  | scalar (text : String) (plain : Bool)
  | streamEnd
deriving DecidableEq, Repr

/-- A part of a text, and where reading goes on. -/
abbrev Scanned (α : Type) := Except Fault (α × Cursor)

end Concordance.Yaml
