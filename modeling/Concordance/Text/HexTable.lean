/-!
# Tables written as text

A table is written as words between blanks; a word holds hexadecimal numbers, set apart by any
other characters.

## Main definitions

* `readHexTable`, `readHexTables`: the numbers of every word
-/

namespace Concordance.Text

/-- The value of a small hexadecimal digit. -/
def smallHexDigit? (c : Char) : Option Nat :=
  if '0' ≤ c ∧ c ≤ '9' then some (c.toNat - 48)
  else if 'a' ≤ c ∧ c ≤ 'f' then some (c.toNat - 87)
  else none

/-- Where reading a table stands: the words read, the numbers of the word being read and the
number being read, all last first. -/
structure HexTableState where
  words : Array (List Nat) := #[]
  numbers : List Nat := []
  number : Option Nat := none

namespace HexTableState

/-- End the number being read. -/
def endNumber (s : HexTableState) : HexTableState :=
  match s.number with
  | some n => { s with numbers := n :: s.numbers, number := none }
  | none => s

/-- End the word being read. -/
def endWord (s : HexTableState) : HexTableState :=
  let s := s.endNumber
  if s.numbers.isEmpty then s
  else { s with words := s.words.push s.numbers.reverse, numbers := [] }

/-- Read one character. -/
def step (s : HexTableState) (c : Char) : HexTableState :=
  match smallHexDigit? c with
  | some d => { s with number := some (s.number.getD 0 * 16 + d) }
  | none => if c = ' ' || c = '\n' then s.endWord else s.endNumber

end HexTableState

/-- The numbers of every word of a table. -/
def readHexTable (s : String) : Array (List Nat) :=
  (s.toList.foldl HexTableState.step {}).endWord.words

/-- The numbers of every word of a table that is written in pieces. -/
def readHexTables (texts : List String) : Array (List Nat) :=
  (texts.flatMap fun s => (readHexTable s).toList).toArray

/-- A table of ranges: a word with one number is a range of one. -/
def readRanges (s : String) : Array (Nat × Nat) :=
  (readHexTable s).map fun
    | [a, b] => (a, b)
    | [a] => (a, a)
    | _ => (1, 0)

end Concordance.Text
