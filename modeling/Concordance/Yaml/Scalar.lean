import Concordance.Json.Reader
import Concordance.Yaml.Token

/-!
# YAML scalars

The texts of scalars in their five styles: plain, between single or double quotes, and as blocks
whose lines are kept or folded. The ends of lines within a scalar of the first three styles are
folded: one is a blank, further ones are kept.

## Main definitions

* `scanPlain`: a plain scalar
* `scanQuoted`: a scalar between quotes
* `scanBlock`: a block
-/

namespace Concordance.Yaml

/-! ### Quoted scalars -/

/-- The characters that stand for others behind a backslash. -/
def simpleEscapes : List (Char × Char) :=
  [('0', '\x00'), ('a', '\x07'), ('b', '\x08'), ('t', '\t'), ('\t', '\t'), ('n', '\n'),
    ('v', '\x0b'), ('f', '\x0c'), ('r', '\r'), ('e', '\x1b'), (' ', ' '), ('"', '"'),
    ('\\', '\\'), ('/', '/'), ('N', '\x85'), ('_', '\xa0'), ('L', '\u2028'), ('P', '\u2029')]

/-- The number of digits of the escapes of characters by their numbers. -/
def numberedEscapes : List (Char × Nat) := [('x', 2), ('u', 4), ('U', 8)]

/-- Empty lines and blanks in front of lines within a quoted scalar; the start or end of a document
may not stand there. -/
def quotedBreaks : (fuel : Nat) → (acc : List Char) → Cursor → Scanned (List Char)
  | 0, _, _ => .error .malformed
  | fuel + 1, acc, c =>
    if c.seesDocumentMarker then .error .malformed
    else
      let c := c.dropWhile fun a => a = ' ' || a = '\t'
      match c.lineBreak with
      | ([], c) => .ok (acc, c)
      | (text, c) => quotedBreaks fuel (acc ++ text) c

/-- What a line break and the empty lines after it stand for. -/
def fold (lineBreak empties : List Char) : List Char :=
  (if lineBreak ≠ ['\n'] then lineBreak else if empties.isEmpty then [' '] else []) ++ empties

/-- A number of `size` hexadecimal digits. -/
def hexNumber? (size : Nat) (cs : List Char) : Option Nat :=
  let digits := cs.take size
  if digits.length < size then none
  else (digits.mapM Json.hexDigit?).map fun values => values.foldl (fun n d => n * 16 + d) 0

/-- The character of a number. The two halves of a pair stand for one; a half on its own stands for
no character. Gives back whether the number behind was needed. -/
def charOfNumber (n : Nat) (behind : List Char) : Char × Bool :=
  let second :=
    match behind with
    | '\\' :: 'u' :: digits => hexNumber? 4 digits
    | _ => none
  match second with
  | some k =>
    if 0xD800 ≤ n && n < 0xDC00 && 0xDC00 ≤ k && k < 0xE000 then
      (Char.ofNat (0x10000 + (n - 0xD800) * 0x400 + (k - 0xDC00)), true)
    else (if n.isValidChar then Char.ofNat n else '\uFFFD', false)
  | none => (if n.isValidChar then Char.ofNat n else '\uFFFD', false)

/-- What stands behind a backslash, as characters. -/
def scanEscape (c : Cursor) : Scanned (List Char) :=
  match c.peek 0 with
  | none => .error .malformed
  | some a =>
    match simpleEscapes.lookup a, numberedEscapes.lookup a with
    | some meant, _ => .ok ([meant], c.step)
    | none, some size =>
      match hexNumber? size c.step.rest with
      | none => .error .malformed
      | some n =>
        if 0x110000 ≤ n then .error (.codePoint n)
        else
          let c := c.step.advance size
          let (meant, needsNext) := charOfNumber n c.rest
          .ok ([meant], if needsNext then c.advance 6 else c)
    | none, none =>
      if isBreak a then quotedBreaks (c.rest.length + 1) [] c.lineBreak.2 else .error .malformed

/-- Blanks within a quoted scalar: themselves, unless the line ends behind them. -/
def quotedSpaces (c : Cursor) : Scanned (List Char) :=
  let (spaces, c) := c.takeWhile fun a => a = ' ' || a = '\t'
  match c.rest with
  | [] => .error .malformed
  | a :: _ =>
    if isBreak a then
      let (text, c) := c.lineBreak
      match quotedBreaks (c.rest.length + 1) [] c with
      | .ok (empties, c) => .ok (fold text empties, c)
      | .error e => .error e
    else .ok (spaces, c)

/-- The rest of a scalar between quotes; `acc` holds what was read. -/
def quotedRest (double : Bool) : (fuel : Nat) → (acc : List Char) → Cursor → Scanned (List Char)
  | 0, _, _ => .error .malformed
  | fuel + 1, acc, c =>
    match c.rest with
    | [] => .error .malformed
    | '\'' :: '\'' :: _ =>
      if double then quotedRest double fuel (acc ++ ['\'']) c.step
      else quotedRest double fuel (acc ++ ['\'']) (c.advance 2)
    | a :: _ =>
      if a = (if double then '"' else '\'') then .ok (acc, c.step)
      else if double && a = '\\' then
        match scanEscape c.step with
        | .ok (meant, c) => quotedRest double fuel (acc ++ meant) c
        | .error e => .error e
      else if isGap a then
        match quotedSpaces c with
        | .ok (spaces, c) => quotedRest double fuel (acc ++ spaces) c
        | .error e => .error e
      else quotedRest double fuel (acc ++ [a]) c.step

/-- A scalar between quotes, from the opening one on. -/
def scanQuoted (double : Bool) (c : Cursor) : Scanned Token :=
  (quotedRest double (2 * c.rest.length + 2) [] c.step).map fun (cs, c) =>
    (.scalar (String.ofList cs) false, c)

/-! ### Plain scalars -/

/-- Whether a character has a meaning of its own within brackets. -/
def isFlowSign (c : Char) : Bool := c = ',' || c = '[' || c = ']' || c = '\x7b' || c = '\x7d'

/-- Whether a plain scalar ends in front of a text. -/
def plainEnds (inFlow : Bool) (cs : List Char) : Bool :=
  match cs with
  | [] => true
  | a :: rest =>
    isGap a ||
      (a = ':' && rest.head?.all fun b => isGap b || (inFlow && isFlowSign b)) ||
      (inFlow && (isFlowSign a || a = '?'))

/-- The number of characters up to the end of a word of a plain scalar. -/
def plainLength (inFlow : Bool) : List Char → Nat
  | [] => 0
  | a :: rest => if plainEnds inFlow (a :: rest) then 0 else plainLength inFlow rest + 1

/-- Empty lines and blanks in front of lines within a plain scalar; nothing if a document starts or
ends there. -/
def plainBreaks : (fuel : Nat) → (acc : List Char) → Cursor → Option (List Char) × Cursor
  | 0, acc, c => (some acc, c)
  | fuel + 1, acc, c =>
    if c.sees (· = ' ') then plainBreaks fuel acc c.step
    else
      match c.lineBreak with
      | ([], c) => (some acc, c)
      | (text, c) =>
        if c.seesDocumentMarker then (none, c) else plainBreaks fuel (acc ++ text) c

/-- What follows a word of a plain scalar. -/
structure PlainSpaces where
  /-- What it stands for if the scalar goes on; nothing if it cannot. -/
  text : List Char
  /-- Whether a line ended. -/
  newLine : Bool

/-- Blanks and ends of lines behind a word of a plain scalar. -/
def plainSpaces (c : Cursor) : PlainSpaces × Cursor :=
  let (spaces, c) := c.takeWhile (· = ' ')
  match c.lineBreak with
  | ([], c) => (⟨spaces, false⟩, c)
  | (text, c) =>
    if c.seesDocumentMarker then (⟨[], true⟩, c)
    else
      match plainBreaks (c.rest.length + 1) [] c with
      | (some empties, c) => (⟨fold text empties, true⟩, c)
      | (none, c) => (⟨[], true⟩, c)

/-- The rest of a plain scalar. `acc` holds what was read, `spaces` what stands in front of the next
word. Gives back whether a line ended behind the last word. -/
def plainRest (inFlow : Bool) (indent : Int) :
    (fuel : Nat) → (acc spaces : List Char) → (newLine : Bool) → Cursor →
      (List Char × Bool) × Cursor
  | 0, acc, _, newLine, c => ((acc, newLine), c)
  | fuel + 1, acc, spaces, newLine, c =>
    let n := plainLength inFlow c.rest
    if c.sees (· = '#') || n = 0 then ((acc, newLine), c)
    else
      let acc := acc ++ spaces ++ c.rest.take n
      let (next, c) := plainSpaces (c.advance n)
      if next.text.isEmpty || c.sees (· = '#') || (!inFlow && (c.column : Int) < indent) then
        ((acc, next.newLine), c)
      else plainRest inFlow indent fuel acc next.text next.newLine c

/-- A plain scalar in a block that is indented by `indent`, with whether a line ended behind it. -/
def scanPlain (inFlow : Bool) (indent : Int) (c : Cursor) : (Token × Bool) × Cursor :=
  let ((cs, newLine), c) := plainRest inFlow (indent + 1) (c.rest.length + 1) [] [] false c
  ((.scalar (String.ofList cs) true, newLine), c)

/-! ### Blocks -/

/-- What happens to the ends of lines at the end of a block. -/
inductive Chomping where
  | strip
  | clip
  | keep
deriving DecidableEq, Repr

/-- The chomping that a character stands for. -/
def chomping? (c : Char) : Option Chomping :=
  if c = '+' then some .keep else if c = '-' then some .strip else none

/-- The chomping behind the sign of a block, if it stands here. -/
def scanChomping (c : Cursor) : Option Chomping × Cursor :=
  match (c.peek 0).bind chomping? with
  | some k => (some k, c.step)
  | none => (none, c)

/-- The indentation behind the sign of a block, if it stands here; it is not zero. -/
def scanIncrement (c : Cursor) : Scanned (Option Nat) :=
  match c.peek 0 with
  | some a =>
    if a.isDigit then
      if a = '0' then .error .malformed else .ok (some (a.toNat - 48), c.step)
    else .ok (none, c)
  | none => .ok (none, c)

/-- The chomping and the indentation of a block, in either order. -/
def scanHeader (c : Cursor) : Except Fault ((Chomping × Option Nat) × Cursor) := do
  let (first, c) := scanChomping c
  let (increment, c) ← scanIncrement c
  let (second, c) :=
    if first.isNone && increment.isSome then scanChomping c else (none, c)
  if c.endsOrSees 0 fun a => a = ' ' || isBreak a then
    .ok (((first.or second).getD .clip, increment), c)
  else .error .malformed

/-- Go over blanks and a comment to the next line; nothing else may stand there. -/
def restOfLine (c : Cursor) : Except Fault Cursor :=
  let c := (c.dropWhile (· = ' ')).comment
  if c.endsOrSees 0 isBreak then .ok c.lineBreak.2 else .error .malformed

/-- Empty lines in front of a block whose indentation is not given: the ends of lines, and the
largest column that was come to. -/
def findIndent : (fuel : Nat) → (acc : List Char) → (most : Nat) → Cursor →
    (List Char × Nat) × Cursor
  | 0, acc, most, c => ((acc, most), c)
  | fuel + 1, acc, most, c =>
    if c.sees (· = ' ') then findIndent fuel acc (max most c.step.column) c.step
    else
      match c.lineBreak with
      | ([], c) => ((acc, most), c)
      | (text, c) => findIndent fuel (acc ++ text) most c

/-- Go over blanks up to a column. -/
def skipIndent (indent : Nat) : (fuel : Nat) → Cursor → Cursor
  | 0, c => c
  | fuel + 1, c =>
    if c.column < indent && c.sees (· = ' ') then skipIndent indent fuel c.step else c

/-- Empty lines within a block. -/
def blockBreaks (indent : Nat) : (fuel : Nat) → (acc : List Char) → Cursor → List Char × Cursor
  | 0, acc, c => (acc, c)
  | fuel + 1, acc, c =>
    let c := skipIndent indent indent c
    match c.lineBreak with
    | ([], c) => (acc, c)
    | (text, c) => blockBreaks indent fuel (acc ++ text) c

/-- The lines of a block from a line that belongs to it on. `acc` holds what was read. Gives back
also the end of the last line and the empty lines behind it. -/
def blockLines (folded : Bool) (indent : Nat) :
    (fuel : Nat) → (acc : List Char) → Cursor → (List Char × List Char × List Char) × Cursor
  | 0, acc, c => ((acc, [], []), c)
  | fuel + 1, acc, c =>
    let isText := fun (c : Cursor) => c.sees fun a => a ≠ ' ' && a ≠ '\t'
    let starts := isText c
    let (line, c) := c.takeWhile fun a => !isBreak a
    let (lineEnd, c) := c.lineBreak
    let (empties, c) := blockBreaks indent (c.rest.length + 1) [] c
    if c.column = indent && !c.rest.isEmpty then
      let between :=
        if folded && lineEnd = ['\n'] && starts && isText c then
          if empties.isEmpty then [' '] else []
        else lineEnd
      blockLines folded indent fuel (acc ++ line ++ between ++ empties) c
    else ((acc ++ line, lineEnd, empties), c)

/-- A block in a block that is indented by `outer`, from its sign on. -/
def scanBlock (folded : Bool) (outer : Int) (c : Cursor) : Except Fault (Token × Cursor) := do
  let ((chomping, increment), c) ← scanHeader c.step
  let c ← restOfLine c
  let least := (max (outer + 1) 1).toNat
  let ((before, indent), c) :=
    match increment with
    | some n =>
      let indent := least + n - 1
      let (breaks, c) := blockBreaks indent (c.rest.length + 1) [] c
      ((breaks, indent), c)
    | none =>
      let ((breaks, most), c) := findIndent (c.rest.length + 1) [] 0 c
      ((breaks, max least most), c)
  let ((text, lineEnd, empties), c) :=
    if c.column = indent && !c.rest.isEmpty then
      blockLines folded indent (c.rest.length + 1) before c
    else (([], [], before), c)
  let tail :=
    match chomping with
    | .strip => []
    | .clip => lineEnd
    | .keep => lineEnd ++ empties
  .ok (.scalar (String.ofList (text ++ tail)) false, c)

end Concordance.Yaml
