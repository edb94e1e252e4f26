import Concordance.Text.Utf8

/-!
# Lines

The lines of a text, which end at a line feed, at a carriage return or at both. A file is read in
blocks. When the octets of a block are no text, reading ends there, and the lines that were complete
before that block are what has been read.

## Main definitions

* `completeLines`: the lines of a text that have an end, and what follows them
* `linesOf`: all lines of a text
* `readLines`: the lines of a file, as far as it can be read
* `readText`: the text of a file, whose lines all end at a line feed
-/

namespace Concordance.Text

/-- The lines that have an end, without it, and what follows the last of them; `acc` holds the line
being read, last character first. -/
def completeLinesFrom (acc : List Char) : List Char → List (List Char) × List Char
  | [] => ([], acc.reverse)
  | '\r' :: '\n' :: rest =>
    let (lines, last) := completeLinesFrom [] rest
    (acc.reverse :: lines, last)
  | c :: rest =>
    if c = '\n' ∨ c = '\r' then
      let (lines, last) := completeLinesFrom [] rest
      (acc.reverse :: lines, last)
    else completeLinesFrom (c :: acc) rest

/-- The lines that have an end, without it, and what follows the last of them. -/
def completeLines (cs : List Char) : List (List Char) × List Char := completeLinesFrom [] cs

/-- The lines of a text, without their ends. -/
def linesOf (cs : List Char) : List (List Char) :=
  let (lines, last) := completeLines cs
  if last.isEmpty then lines else lines ++ [last]

/-- The number of octets in a block of a file. -/
def blockSize : Nat := 8192

/-- The octets in front of a fault that belong to blocks that can be read. -/
def readableLength (f : Utf8.Fault) : Nat :=
  match f.noticedAt? with
  | some n => min f.position (n / blockSize * blockSize)
  | none => f.position

/-- A carriage return at the end waits for what comes after it. -/
def dropWaiting (cs : List Char) : List Char :=
  if cs.getLast? = some '\r' then cs.dropLast else cs

/-- The lines of a file, as far as it can be read. -/
def readLines (octets : List UInt8) : List (List Char) :=
  match Utf8.decode octets with
  | .ok cs => linesOf cs
  | .error f =>
    match Utf8.decode (octets.take (readableLength f)) with
    | .ok cs => (completeLines (dropWaiting cs)).1
    | .error _ => []

/-! ### Texts -/

/-- A text in which every end of a line is a line feed. -/
def unifyBreaks : List Char → List Char
  | '\r' :: '\n' :: rest => '\n' :: unifyBreaks rest
  | c :: rest => (if c = '\r' then '\n' else c) :: unifyBreaks rest
  | [] => []

/-- The start of the character that holds the octet at a position. -/
def charStart (octets : List UInt8) (n : Nat) : Nat :=
  n - ((octets.take (n + 1)).reverse.takeWhile Utf8.isContinuation).length

/-- Where the octets start that are looked at together with those of a fault: at its block, or at
the character that reaches into it. At the end of the file only what is left is looked at. -/
def blockStart (octets : List UInt8) (f : Utf8.Fault) : Nat :=
  match f.noticedAt? with
  | some n => min f.position (charStart octets (n / blockSize * blockSize))
  | none => f.position

/-- The text of a file. The position of a fault is told within its block. -/
def readText (octets : List UInt8) : Except Utf8.Fault (List Char) :=
  match Utf8.decode octets with
  | .ok cs => .ok (unifyBreaks cs)
  | .error f => .error { f with position := f.position - blockStart octets f }

end Concordance.Text
