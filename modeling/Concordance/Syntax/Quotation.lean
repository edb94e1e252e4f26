import Concordance.Syntax.Token
import Concordance.Text.Points

/-!
# Texts

What the characters between the quotes of a text stand for. Escapes are read unless the text is
raw. They stand for code points, which need not be those of characters. A formatted text is taken
apart into its fields: the text of an expression up to the mark that ends it, an optional conversion,
and an optional format that may hold fields again, one level deep.

## Main definitions

* `unescape?`, `unescapeOctets?`: escapes in texts and in octets
* `Literal.ofPoints`: the literal that a text is
* `Field`, `fields?`: the fields of a formatted text
-/

namespace Concordance.Syntax

/-! ### Escapes -/

/-- The value of hexadecimal digits. -/
def hexValue? (cs : List Char) : Option Nat :=
  cs.foldlM (fun n c => (digitOf? c).map fun d => n * 16 + d) 0
where
  /-- The value of one digit. -/
  digitOf? (c : Char) : Option Nat :=
    if '0' ≤ c ∧ c ≤ '9' then some (c.toNat - 48)
    else if 'a' ≤ c ∧ c ≤ 'f' then some (c.toNat - 87)
    else if 'A' ≤ c ∧ c ≤ 'F' then some (c.toNat - 55)
    else none

/-- The characters that a single letter behind a backslash stands for. -/
def simpleEscape? (c : Char) : Option Char :=
  match c with
  | '\\' => some '\\'
  | '\'' => some '\''
  | '"' => some '"'
  | 'a' => some '\x07'
  | 'b' => some '\x08'
  | 'f' => some '\x0c'
  | 'n' => some '\n'
  | 'r' => some '\r'
  | 't' => some '\t'
  | 'v' => some '\x0b'
  | _ => none

/-- Whether a character is an octal digit. -/
def isOctal (c : Char) : Bool := '0' ≤ c && c ≤ '7'

/-- The value of up to three octal digits, and what follows them. -/
def readOctal (cs : List Char) : Nat × List Char :=
  let digits := (cs.take 3).takeWhile isOctal
  (digits.foldl (fun n c => n * 8 + (c.toNat - 48)) 0, cs.drop digits.length)

/-- A number of exactly so many hexadecimal digits, and what follows it. -/
def readHex? (count : Nat) (cs : List Char) : Option (Nat × List Char) :=
  if (cs.take count).length = count then
    (hexValue? (cs.take count)).map fun n => (n, cs.drop count)
  else none

/-- A character given by name, and what follows it. The name is not looked up: it stands for the
replacement character. -/
def readNamed? : List Char → Option (Char × List Char)
  | '\x7b' :: rest =>
    let name := rest.takeWhile (· ≠ '\x7d')
    let rest := rest.drop name.length
    if name.isEmpty || rest.isEmpty then none else some ('\uFFFD', rest.drop 1)
  | _ => none

/-- Read the escapes of a text, for at most `fuel` steps; what was read is kept last first. An
unknown escape stands for itself. -/
def unescapeFrom? : Nat → List Nat → List Char → Option (List Nat)
  | 0, acc, _ => some acc.reverse
  | fuel + 1, acc, cs =>
    match cs with
    | [] => some acc.reverse
    | ['\\'] => some ('\\'.toNat :: acc).reverse
    | '\\' :: c :: rest =>
      if c = '\n' then unescapeFrom? fuel acc rest
      else if isOctal c then
        let (n, rest) := readOctal (c :: rest)
        unescapeFrom? fuel (n :: acc) rest
      else if c = 'x' || c = 'u' || c = 'U' then
        match readHex? (if c = 'x' then 2 else if c = 'u' then 4 else 8) rest with
        | none => none
        | some (n, rest) => if n < 0x110000 then unescapeFrom? fuel (n :: acc) rest else none
      else if c = 'N' then
        match readNamed? rest with
        | some (d, rest) => unescapeFrom? fuel (d.toNat :: acc) rest
        | none => none
      else
        match simpleEscape? c with
        | some d => unescapeFrom? fuel (d.toNat :: acc) rest
        | none => unescapeFrom? fuel (c.toNat :: '\\'.toNat :: acc) rest
    | c :: rest => unescapeFrom? fuel (c.toNat :: acc) rest

/-- Read the escapes of a text. -/
def unescape? (cs : List Char) : Option (List Nat) := unescapeFrom? (cs.length + 1) [] cs

/-- The literal that a text is. -/
def Literal.ofPoints (points : List Nat) : Literal :=
  match Text.charsOf? points with
  | .some cs => .string (String.ofList cs)
  | .none => .halved points

/-- Read the escapes of octets, for at most `fuel` steps; what was read is kept last first. -/
def unescapeOctetsFrom? : Nat → List UInt8 → List Char → Option (List UInt8)
  | 0, acc, _ => some acc.reverse
  | fuel + 1, acc, cs =>
    match cs with
    | [] => some acc.reverse
    | '\\' :: c :: rest =>
      if c = '\n' then unescapeOctetsFrom? fuel acc rest
      else if isOctal c then
        let (n, rest) := readOctal (c :: rest)
        unescapeOctetsFrom? fuel (UInt8.ofNat n :: acc) rest
      else if c = 'x' then
        match readHex? 2 rest with
        | some (n, rest) => unescapeOctetsFrom? fuel (UInt8.ofNat n :: acc) rest
        | none => none
      else
        match simpleEscape? c with
        | some d => unescapeOctetsFrom? fuel (UInt8.ofNat d.toNat :: acc) rest
        | none => unescapeOctetsFrom? fuel (UInt8.ofNat c.toNat :: 92 :: acc) rest
    | c :: rest => unescapeOctetsFrom? fuel (UInt8.ofNat c.toNat :: acc) rest

/-- Read the escapes of octets, which have to be ASCII as they are written. -/
def unescapeOctets? (raw : Bool) (cs : List Char) : Option (List UInt8) :=
  if cs.any fun c => 0x80 ≤ c.toNat then none
  else if raw then some (cs.map fun c => UInt8.ofNat c.toNat)
  else unescapeOctetsFrom? (cs.length + 1) [] cs

/-! ### Formatted texts -/

/-- A field: the text of its expression, the line on which it opens, and the fields of its format
if it has one. -/
inductive Field where
  | mk (text : List Char) (line : Nat) (format : Option (List Field))

/-- A quote that is open within the text of an expression. -/
structure OpenQuote where
  mark : Char
  tripled : Bool

/-- Whether a bracket is closed by another one. -/
def closes (opening c : Char) : Bool :=
  (opening = '(' && c = ')') || (opening = '[' && c = ']') || (opening = '\x7b' && c = '\x7d')

/-- The text of an expression up to the mark that ends it, in at most `fuel` steps. `nesting`
holds the open brackets, innermost first, `acc` the characters read, last first. -/
def readFieldText? : Nat → Option OpenQuote → List Char → List Char → List Char →
    Option (List Char × List Char)
  | 0, _, _, _, _ => none
  | _, _, _, _, [] => none
  | fuel + 1, some q, nesting, acc, c :: rest =>
    if c = '\\' then none
    else if c = q.mark then
      if !q.tripled then readFieldText? fuel none nesting (c :: acc) rest
      else if [c, c].isPrefixOf rest then
        readFieldText? fuel none nesting (c :: c :: c :: acc) (rest.drop 2)
      else readFieldText? fuel (some q) nesting (c :: acc) rest
    else readFieldText? fuel (some q) nesting (c :: acc) rest
  | fuel + 1, none, nesting, acc, c :: rest =>
    if c = '\\' || c = '#' then none
    else if c = '\'' || c = '"' then
      if [c, c].isPrefixOf rest then
        readFieldText? fuel (some ⟨c, true⟩) nesting (c :: c :: c :: acc) (rest.drop 2)
      else readFieldText? fuel (some ⟨c, false⟩) nesting (c :: acc) rest
    else if c = '(' || c = '[' || c = '\x7b' then
      readFieldText? fuel none (c :: nesting) (c :: acc) rest
    else if nesting.isEmpty && "!:\x7d=><".toList.contains c then
      if rest.head? = some '=' && "!=<>".toList.contains c then
        readFieldText? fuel none nesting ('=' :: c :: acc) (rest.drop 1)
      else if c = '<' || c = '>' then readFieldText? fuel none nesting (c :: acc) rest
      else some (acc.reverse, c :: rest)
    else if c = ')' || c = ']' || c = '\x7d' then
      match nesting with
      | [] => none
      | b :: outer => if closes b c then readFieldText? fuel none outer (c :: acc) rest else none
    else readFieldText? fuel none nesting (c :: acc) rest

/-- The characters between two fields. -/
structure Piece where
  text : List Char
  /-- Whether a doubled brace ended the piece, so that another piece follows. -/
  doubled : Bool
  rest : List Char

/-- End a piece at a brace. At the outermost level a doubled brace stands for one, and a closing
brace alone is an error. -/
def Piece.atBrace? (outermost : Bool) (acc : List Char) (c : Char) (rest : List Char) :
    Option Piece :=
  if outermost then
    if rest.head? = some c then some ⟨(c :: acc).reverse, true, rest.drop 1⟩
    else if c = '\x7d' then none
    else some ⟨acc.reverse, false, c :: rest⟩
  else some ⟨acc.reverse, false, c :: rest⟩

/-- Read the characters up to the next field, in at most `fuel` steps; `acc` holds those read,
last first. -/
def readPiece? (raw outermost : Bool) : Nat → List Char → List Char → Option Piece
  | 0, _, _ => none
  | _, acc, [] => some ⟨acc.reverse, false, []⟩
  | fuel + 1, acc, c :: rest =>
    let isBrace := fun d => d = '\x7b' || d = '\x7d'
    if isBrace c then Piece.atBrace? outermost acc c rest
    else if c = '\\' && !raw then
      match rest with
      | [] => some ⟨('\\' :: acc).reverse, false, []⟩
      | d :: more =>
        if isBrace d then Piece.atBrace? outermost ('\\' :: acc) d more
        else if d = 'N' && more.head? = some '\x7b' then
          -- the braces around the name of a character open no field
          let name := more.takeWhile (· ≠ '\x7d')
          let left := more.drop name.length
          readPiece? raw outermost fuel
            ((left.take 1).reverse ++ name.reverse ++ ['N', '\\'] ++ acc) (left.drop 1)
        else readPiece? raw outermost fuel (d :: '\\' :: acc) more
    else readPiece? raw outermost fuel (c :: acc) rest

/-- The number of lines that characters end. -/
def lineEnds (cs : List Char) : Nat := cs.countP (· = '\n')

/-- Whether characters hold nothing that an expression could be. -/
def isVoid (cs : List Char) : Bool :=
  cs.all fun c => c = ' ' || c = '\t' || c = '\n' || c = '\x0c'

/-- Skip the sign that asks for the text of the expression, and a conversion. -/
def skipConversion? (cs : List Char) : Option (List Char) :=
  let cs := match cs with
    | '=' :: rest =>
      rest.dropWhile fun c => c = ' ' || (0x09 ≤ c.toNat && c.toNat ≤ 0x0D)
    | _ => cs
  match cs with
  | '!' :: c :: rest => if c = 's' || c = 'r' || c = 'a' then some rest else none
  | ['!'] => none
  | _ => some cs

/-- The fields of a formatted text in at most `fuel` steps; `level` counts the formats around it.
The answer ends at the end of the text, or within a format at its closing brace. The line is that
of the characters ahead; `acc` holds the fields read, last first. -/
def fieldsFrom? (raw : Bool) : Nat → Nat → Nat → List Field → List Char →
    Option (List Field × Nat × List Char)
  | 0, _, _, _, _ => none
  | fuel + 1, level, line, acc, cs =>
    match readPiece? raw (level == 0) (cs.length + 1) [] cs with
    | none => none
    | some piece =>
      if !raw && (unescape? piece.text).isNone then none
      else
        let ahead := line + (lineEnds cs - lineEnds piece.rest)
        if piece.doubled then fieldsFrom? raw fuel level ahead acc piece.rest
        else
          match piece.rest with
          | [] => if level = 0 then some (acc.reverse, ahead, []) else none
          | c :: rest =>
            if c = '\x7d' then some (acc.reverse, ahead, c :: rest)
            else if 2 ≤ level then none
            else
              match readFieldText? (rest.length + 1) none [] [] rest with
              | none => none
              | some (text, left) =>
                if isVoid text then none
                else
                  let inside := ahead + lineEnds text
                  match skipConversion? left with
                  | none => none
                  | some (':' :: format) =>
                    match fieldsFrom? raw fuel (level + 1) inside [] format with
                    | some (nested, after, '\x7d' :: rest) =>
                      fieldsFrom? raw fuel level after (.mk text ahead (some nested) :: acc) rest
                    | _ => none
                  | some ('\x7d' :: rest) =>
                    fieldsFrom? raw fuel level (inside + (lineEnds left - lineEnds rest))
                      (.mk text ahead none :: acc) rest
                  | some _ => none

/-- The fields of a formatted text that opens on the given line. -/
def fields? (raw : Bool) (line : Nat) (cs : List Char) : Option (List Field) :=
  (fieldsFrom? raw (cs.length + 1) 0 line [] cs).map fun r => r.1

end Concordance.Syntax
