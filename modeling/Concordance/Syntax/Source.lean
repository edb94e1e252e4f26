import Concordance.Syntax.Grammar.Statement
import Concordance.Text.Blank

/-!
# Source texts

Texts of the analysed language as trees: whole modules and single expressions. A text that holds
the null character is refused before it is looked at.

## Main definitions

* `Syntax.Fault`: why a text has no tree
* `parseModule`, `parseExpression`: the trees
-/

namespace Concordance.Syntax

/-- Why a text has no tree. -/
inductive Fault where
  /-- It holds the null character. -/
  | nullCharacter
  /-- It does not follow the grammar. -/
  | malformed
deriving DecidableEq, Repr

/-- The wording for a text that holds the null character. -/
def nullCharacterText : String := "source code string cannot contain null bytes"

/-- Read a text by a part of the grammar. The bound given to it exceeds the number of nestings
and of repetitions that the text has room for. -/
def readSource {α : Type} (grammar : Nat → Reader α) (source : String) : Except Fault α :=
  let cs := source.toList
  if cs.contains '\x00' then .error .nullCharacter
  else
    match tokensFrom? 0 cs with
    | none => .error .malformed
    | some tokens =>
      match (grammar (2 * cs.length + 16)).run ⟨tokens, 0⟩ with
      | some (a, _) => .ok a
      | none => .error .malformed

/-- A text cannot be read for the null character exactly if it holds it. -/
theorem readSource_eq_nullCharacter_iff {α : Type} {grammar : Nat → Reader α} {source : String} :
    readSource grammar source = .error .nullCharacter ↔ '\x00' ∈ source.toList := by
  unfold readSource
  by_cases h : '\x00' ∈ source.toList
  · simp [h]
  · simp only [List.contains_iff_mem, h, iff_false, if_false]
    split
    · exact nofun
    · split <;> exact nofun

/-- The statements of a module. -/
def parseModule (source : String) : Except Fault (List Node) := readSource moduleBody source

/-- The expression that a text consists of. -/
def parseExpression (source : String) : Except Fault Node := readSource lineExpression source

end Concordance.Syntax
