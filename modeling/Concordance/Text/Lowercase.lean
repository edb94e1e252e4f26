import Concordance.Text.CaseTable
import Concordance.Text.Ranges

/-!
# Lower case

Full lower casing: every character is mapped on its own, apart from two. The capital I with a dot
becomes an i followed by a combining dot, and a capital sigma becomes a final sigma when it ends a
word, that is when a letter with case stands before it and none after it, characters like the
apostrophe being passed over on both sides.

## Main definitions

* `lower`: the lower case form of a text
-/

namespace Concordance.Text

/-- Whether a character has case, those passed over apart. -/
def isCased (c : Char) : Bool :=
  if c.toNat < 0x80 then c.isAlpha else inRanges casedRanges c.toNat

/-- Whether a character is passed over in the search for the neighbours of a sigma. -/
def isCaseIgnorable (c : Char) : Bool :=
  inRanges caseIgnorableRanges c.toNat

/-- The lower case of one character, context apart. -/
def lowerChar (c : Char) : Char :=
  if c.toNat < 0x80 then c.toLower
  else
    match lowerRuns.find? fun r =>
        r.first ≤ c.toNat && c.toNat ≤ r.last && (c.toNat - r.first) % r.step == 0 with
    | some r => Char.ofNat (Int.toNat (c.toNat + r.shift))
    | none => c

/-- Whether the first character that is not passed over has case. -/
def casedFollows (cs : List Char) : Bool :=
  match cs.dropWhile isCaseIgnorable with
  | [] => false
  | c :: _ => isCased c

/-- Lower a list of characters; `before` tells whether the last character that is not passed over
had case. -/
def lowerChars (before : Bool) : List Char → List Char
  | [] => []
  | c :: rest =>
    let here := if isCaseIgnorable c then before else isCased c
    if c = 'Σ' then
      (if before && !casedFollows rest then 'ς' else 'σ') :: lowerChars here rest
    else if c = 'İ' then 'i' :: '\u0307' :: lowerChars here rest
    else lowerChar c :: lowerChars here rest

/-- The lower case form of a text. -/
def lower (s : String) : String := String.ofList (lowerChars false s.toList)

theorem lowerChars_nil (before : Bool) : lowerChars before [] = [] := rfl

end Concordance.Text
