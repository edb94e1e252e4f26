/-!
# Positions in a YAML text

Where reading stands: the rest of the text, and the position as an index, a line and a column. The
end of the text counts as a blank wherever one is asked for.

## Main definitions

* `Cursor`, `Cursor.advance`: a position, and going on
* `isBreak`, `isGap`: the ends of lines, and what stands between words
* `Cursor.lineBreak`: going over the end of a line
-/

namespace Concordance.Yaml

/-- Whether a character ends a line. -/
def isBreak (c : Char) : Bool :=
  c = '\n' || c = '\r' || c = '\x85' || c = '\u2028' || c = '\u2029'

/-- Whether a character is a blank or ends a line. -/
def isGap (c : Char) : Bool := c = ' ' || c = '\t' || isBreak c

/-- Where reading stands. -/
structure Cursor where
  rest : List Char
  index : Nat := 0
  line : Nat := 0
  column : Nat := 0

namespace Cursor

/-- Go on by one character. A byte order mark takes no column. -/
def step (c : Cursor) : Cursor :=
  match c.rest with
  | [] => c
  | a :: rest =>
    let ends := if a = '\r' then rest.head? ≠ some '\n' else isBreak a
    if ends then ⟨rest, c.index + 1, c.line + 1, 0⟩
    else ⟨rest, c.index + 1, c.line, if a = '\uFEFF' then c.column else c.column + 1⟩

/-- Go on by a number of characters. -/
def advance (c : Cursor) : Nat → Cursor
  | 0 => c
  | n + 1 => c.step.advance n

/-- The character ahead by a number of characters. -/
def peek (c : Cursor) (ahead : Nat) : Option Char := c.rest[ahead]?

/-- Whether the text ends here or goes on with a character of a kind. -/
def endsOrSees (c : Cursor) (ahead : Nat) (p : Char → Bool) : Bool := (c.peek ahead).all p

/-- Whether the text goes on with a character of a kind. -/
def sees (c : Cursor) (p : Char → Bool) : Bool := (c.peek 0).any p

/-- Whether a word may end in front of what is ahead by a number of characters. -/
def atGap (c : Cursor) (ahead : Nat) : Bool := c.endsOrSees ahead isGap

/-- The characters of a kind that come next, and going over them. -/
def takeWhile (c : Cursor) (p : Char → Bool) : List Char × Cursor :=
  let taken := c.rest.takeWhile p
  (taken, c.advance taken.length)

/-- Go over the characters of a kind that come next. -/
def dropWhile (c : Cursor) (p : Char → Bool) : Cursor := (c.takeWhile p).2

/-- Go over the end of a line, if it is one: what it stands for in a value, and the rest. -/
def lineBreak (c : Cursor) : List Char × Cursor :=
  match c.rest with
  | '\r' :: '\n' :: _ => (['\n'], c.advance 2)
  | a :: _ =>
    if a = '\u2028' || a = '\u2029' then ([a], c.step)
    else if isBreak a then (['\n'], c.step)
    else ([], c)
  | [] => ([], c)

/-- Go over a comment, up to the end of the line. -/
def comment (c : Cursor) : Cursor :=
  if c.sees (· = '#') then c.dropWhile fun a => !isBreak a else c

/-- Whether a line that consists of three equal characters starts here, up to a blank. -/
def seesMarker (c : Cursor) (a : Char) : Bool :=
  c.rest.take 3 = [a, a, a] && c.atGap 3

/-- Whether the start or end of a document stands here. -/
def seesDocumentMarker (c : Cursor) : Bool := c.seesMarker '-' || c.seesMarker '.'

end Cursor

end Concordance.Yaml
