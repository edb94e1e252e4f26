import Concordance.Text.CompatibilityTable
import Concordance.Text.HexTable

/-!
# Compatibility normalisation

The normal form in which two spellings of an identifier are the same: characters are decomposed
fully, marks put into their canonical order, and what can be composed is composed. Hangul
syllables are taken apart and put together by arithmetic.

## Main definitions

* `normalize`: the normal form of a text
-/

namespace Concordance.Text

/-- The table of decompositions, ascending by character. -/
def decompositions : Array (List Nat) := readHexTables decompositionTexts

/-- The table of combining classes, ascending by first character. -/
def combiningClasses : Array (List Nat) := readHexTable combiningText

/-- The table of compositions, ascending. -/
def compositions : Array (List Nat) := readHexTables compositionTexts

/-- Halving search for the last word of a table that is not above a key, between two indices. -/
def lastNotAbove (table : Array (List Nat)) (above : List Nat → Bool) : Nat → Nat → Nat → Nat
  | 0, lo, _ => lo
  | fuel + 1, lo, hi =>
    if lo + 1 < hi then
      let mid := (lo + hi) / 2
      if above (table[mid]?.getD []) then lastNotAbove table above fuel lo mid
      else lastNotAbove table above fuel mid hi
    else lo

/-- The word of a table found by halving. -/
def searchTable (table : Array (List Nat)) (above : List Nat → Bool) : List Nat :=
  table[lastNotAbove table above (table.size + 1) 0 table.size]?.getD []

/-- The full decomposition of a code point. -/
def decompose (n : Nat) : List Nat :=
  if n < 0x80 then [n]
  else if 0xAC00 ≤ n ∧ n ≤ 0xD7A3 then
    let s := n - 0xAC00
    let tail := s % 28
    [0x1100 + s / 588, 0x1161 + s % 588 / 28] ++ (if tail = 0 then [] else [0x11A7 + tail])
  else
    match searchTable decompositions fun w => n < w.headD 0 with
    | m :: parts => if m = n then parts else [n]
    | [] => [n]

/-- The canonical combining class of a code point. -/
def combiningClass (n : Nat) : Nat :=
  if n < 0x300 then 0
  else
    match searchTable combiningClasses fun w => n < w.headD 0 with
    | [first, last, c] => if first ≤ n ∧ n ≤ last then c else 0
    | _ => 0

/-- The composition of two code points, if there is one. -/
def compose? (a b : Nat) : Option Nat :=
  if 0x1100 ≤ a ∧ a ≤ 0x1112 ∧ 0x1161 ≤ b ∧ b ≤ 0x1175 then
    some (0xAC00 + ((a - 0x1100) * 21 + (b - 0x1161)) * 28)
  else if 0xAC00 ≤ a ∧ a ≤ 0xD7A3 ∧ (a - 0xAC00) % 28 = 0 ∧ 0x11A8 ≤ b ∧ b ≤ 0x11C2 then
    some (a + (b - 0x11A7))
  else
    let above := fun (w : List Nat) =>
      match w with
      | x :: y :: _ => a < x || (a == x && b < y)
      | _ => false
    match searchTable compositions above with
    | [x, y, c] => if x = a ∧ y = b then some c else none
    | _ => none

/-- Put a mark behind the marks of its class or a lower one. The list is last first. -/
def insertMark (n : Nat) : List Nat → List Nat
  | [] => [n]
  | m :: rest =>
    if combiningClass n < combiningClass m then m :: insertMark n rest else n :: m :: rest

/-- The canonical order of marks. -/
def orderMarks (ns : List Nat) : List Nat :=
  (ns.foldl (fun acc n => if combiningClass n = 0 then n :: acc else insertMark n acc) []).reverse

/-- Compose what follows a starter. `seen` are the marks kept since, last first. -/
def composeFrom (starter : Nat) (seen : List Nat) : List Nat → List Nat
  | [] => starter :: seen.reverse
  | n :: rest =>
    let c := combiningClass n
    let blocked :=
      match seen with
      | [] => false
      | m :: _ => combiningClass m = 0 || c ≤ combiningClass m
    match if blocked then none else compose? starter n with
    | some composite => composeFrom composite seen rest
    | none =>
      if c = 0 then starter :: (seen.reverse ++ composeFrom n [] rest)
      else composeFrom starter (n :: seen) rest

/-- The normal form of a list of code points. -/
def normalizePoints (ns : List Nat) : List Nat :=
  match orderMarks (ns.flatMap decompose) with
  | [] => []
  | n :: rest => composeFrom n [] rest

/-- The normal form of a text; a text of ASCII is its own. -/
def normalize (s : String) : String :=
  if s.toList.all fun c => c.toNat < 0x80 then s
  else String.ofList ((normalizePoints (s.toList.map Char.toNat)).map Char.ofNat)

end Concordance.Text
