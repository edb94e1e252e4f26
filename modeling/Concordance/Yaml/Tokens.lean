import Concordance.Text.Utf8
import Concordance.Yaml.Scalar

/-!
# Reading YAML tokens

A text is read token by token. Whether something is the key of a mapping turns out only at the colon
behind it, so the places where a key may have begun are remembered, one for each level of brackets,
and the tokens that a key needs are put in there afterwards. A key has to fit on a line and into a
thousand and twenty-four characters.

Reading stops at the first fault. The tokens in front of it still count: what they already say may
rule the text out.

## Main definitions

* `Scan`: how far reading has come
* `Scan.next`: reading the next token
* `tokensOf`: the tokens of a text, and the fault that ended them
-/

namespace Concordance.Yaml

/-- A place where a key may have begun: its token by number, its position, and whether a key has to
stand there. -/
structure KeyStart where
  token : Nat
  required : Bool
  index : Nat
  line : Nat
  column : Nat

/-- How far reading has come: the position, the tokens so far, the depth of brackets, the columns of
the blocks around, innermost first, whether a key may start here, and where keys may have begun,
level by level, innermost first. -/
structure Scan where
  cursor : Cursor
  tokens : Array Token := #[]
  flowLevel : Nat := 0
  indent : Int := -1
  indents : List Int := []
  keyMayStart : Bool := true
  keys : List (Nat × KeyStart) := []

/-- The largest distance between the start of a key and its colon. -/
def longestKey : Nat := 1024

namespace Scan

/-- Add a token. -/
def emit (s : Scan) (t : Token) : Scan := { s with tokens := s.tokens.push t }

/-- Add a token and go over its characters. -/
def emitOver (s : Scan) (t : Token) (size : Nat) : Scan :=
  { s with tokens := s.tokens.push t, cursor := s.cursor.advance size }

/-- Whether reading stands within brackets. -/
def inFlow (s : Scan) : Bool := s.flowLevel ≠ 0

/-! ### Keys -/

/-- Forget the places from which a key can no longer reach here. -/
def dropStale (s : Scan) : Except Fault Scan :=
  let stale := fun (k : Nat × KeyStart) =>
    k.2.line ≠ s.cursor.line || longestKey < s.cursor.index - k.2.index
  if s.keys.any fun k => stale k && k.2.required then .error .malformed
  else .ok { s with keys := s.keys.filter fun k => !stale k }

/-- Forget the place at the present level. -/
def dropKey (s : Scan) : Except Fault Scan :=
  if s.keys.any fun k => k.1 = s.flowLevel && k.2.required then .error .malformed
  else .ok { s with keys := s.keys.filter fun k => k.1 ≠ s.flowLevel }

/-- Remember that a key may begin here. -/
def saveKey (s : Scan) : Except Fault Scan :=
  if s.keyMayStart then
    (s.dropKey).map fun s =>
      let c := s.cursor
      let k : KeyStart :=
        ⟨s.tokens.size, !s.inFlow && s.indent = c.column, c.index, c.line, c.column⟩
      { s with keys := (s.flowLevel, k) :: s.keys }
  else .ok s

/-! ### Blocks -/

/-- Close the blocks that are indented by more than a column. -/
def closeBlocks (column : Int) (s : Scan) : Scan :=
  if s.inFlow then s
  else
    let around := s.indent :: s.indents
    let closed := around.takeWhile fun i => column < i
    let left := around.drop closed.length
    { s with
      tokens := s.tokens ++ (closed.map fun _ => Token.blockEnd).toArray
      indent := left.headD (-1), indents := left.tail }

/-- Open a block at a column, if it is indented by more than the present one; its token is put in at
a place. -/
def openBlock (s : Scan) (column : Nat) (t : Token) (place : Nat) : Scan :=
  if s.indent < column then
    { s with
      tokens := s.tokens.toList.insertIdx place t |>.toArray
      indent := column, indents := s.indent :: s.indents }
  else s

/-! ### Tokens -/

/-- Go over blanks, comments and the ends of lines. -/
def skipGaps : (fuel : Nat) → Scan → Scan
  | 0, s => s
  | fuel + 1, s =>
    let c := (s.cursor.dropWhile (· = ' ')).comment
    match c.lineBreak with
    | ([], c) => { s with cursor := c }
    | (_, c) => skipGaps fuel { s with cursor := c, keyMayStart := s.keyMayStart || !s.inFlow }

/-- A byte order mark at the start of the text does not count. -/
def skipMark (s : Scan) : Scan :=
  if s.cursor.index = 0 && s.cursor.sees (· = '\uFEFF') then { s with cursor := s.cursor.step }
  else s

/-- Read the end of the text. -/
def scanEnd (s : Scan) : Except Fault Scan :=
  (s.closeBlocks (-1)).dropKey.map fun s =>
    { s.emit .streamEnd with keyMayStart := false, keys := [] }

/-- Read the start or end of a document. -/
def scanMarker (s : Scan) (t : Token) : Except Fault Scan :=
  (s.closeBlocks (-1)).dropKey.map fun s => { s.emitOver t 3 with keyMayStart := false }

/-- Read an opening bracket. -/
def scanOpening (s : Scan) (t : Token) : Except Fault Scan :=
  s.saveKey.map fun s =>
    { s.emitOver t 1 with flowLevel := s.flowLevel + 1, keyMayStart := true }

/-- Read a closing bracket. -/
def scanClosing (s : Scan) (t : Token) : Except Fault Scan :=
  s.dropKey.map fun s => { s.emitOver t 1 with flowLevel := s.flowLevel - 1, keyMayStart := false }

/-- Read a comma. -/
def scanComma (s : Scan) : Except Fault Scan :=
  s.dropKey.map fun s => { s.emitOver .flowEntry 1 with keyMayStart := true }

/-- Open a block for a sign that stands here; it has to stand where a key may start. -/
def openHere (s : Scan) (t : Token) : Except Fault Scan :=
  if s.inFlow then .ok s
  else if s.keyMayStart then .ok (s.openBlock s.cursor.column t s.tokens.size)
  else .error .malformed

/-- Read the sign of an entry. -/
def scanEntry (s : Scan) : Except Fault Scan := do
  let s ← (← s.openHere .blockSequenceStart).dropKey
  pure { s.emitOver .blockEntry 1 with keyMayStart := true }

/-- Read the sign of a key. -/
def scanKey (s : Scan) : Except Fault Scan := do
  let s ← (← s.openHere .blockMappingStart).dropKey
  pure { s.emitOver .key 1 with keyMayStart := !s.inFlow }

/-- Read the sign of a value. If a key may have begun at this level, it did. -/
def scanValue (s : Scan) : Except Fault Scan :=
  match s.keys.find? fun k => k.1 = s.flowLevel with
  | some (_, k) =>
    let s := { s with
      keys := s.keys.filter fun k => k.1 ≠ s.flowLevel
      tokens := (s.tokens.toList.insertIdx k.token .key).toArray }
    let s := if s.inFlow then s else s.openBlock k.column .blockMappingStart k.token
    .ok { s.emitOver .value 1 with keyMayStart := false }
  | none => do
    let s ← (← s.openHere .blockMappingStart).dropKey
    pure { s.emitOver .value 1 with keyMayStart := !s.inFlow }

/-- Read something that can be a key. -/
def scanNode (s : Scan) (scan : Cursor → Scanned Token) : Except Fault Scan :=
  match s.saveKey with
  | .error e => .error e
  | .ok s => (scan s.cursor).map fun (t, c) => { s.emit t with cursor := c, keyMayStart := false }

/-- Read a plain scalar. -/
def scanPlainNode (s : Scan) : Except Fault Scan :=
  s.saveKey.map fun s =>
    let ((t, newLine), c) := scanPlain s.inFlow s.indent s.cursor
    { s.emit t with cursor := c, keyMayStart := newLine }

/-- Read a block scalar. -/
def scanBlockNode (s : Scan) (folded : Bool) : Except Fault Scan :=
  match s.dropKey with
  | .error e => .error e
  | .ok s =>
    (scanBlock folded s.indent s.cursor).map fun (t, c) =>
      { s.emit t with cursor := c, keyMayStart := true }

/-! ### Names -/

/-- Whether a character may stand in the name of an anchor or of a directive. -/
def isNameChar (c : Char) : Bool := c.isAlphanum || c = '-' || c = '_'

/-- Whether what follows the name of an anchor ends it. -/
def endsAnchor (c : Char) : Bool :=
  isGap c || ['?', ':', ',', ']', '\x7d', '%', '@', '\x60'].contains c

/-- The name of an anchor or alias behind its sign. -/
def scanAnchor (make : String → Token) (c : Cursor) : Scanned Token :=
  let (name, c) := c.step.takeWhile isNameChar
  if name.isEmpty || !c.endsOrSees 0 endsAnchor then .error .malformed
  else .ok (make (String.ofList name), c)

/-- Whether a character may stand in the name of a type. -/
def isUriChar (c : Char) : Bool :=
  c.isAlphanum || c = '\'' || "-;/?:@&=+$,_.!~*()[]".toList.contains c

/-- Octets of the name of a type that are written by their numbers. -/
def scanUriOctets : (fuel : Nat) → (acc : List UInt8) → Cursor → Scanned (List UInt8)
  | 0, _, _ => .error .malformed
  | fuel + 1, acc, c =>
    match c.rest with
    | '%' :: a :: b :: _ =>
      match Json.hexDigit? a, Json.hexDigit? b with
      | some x, some y => scanUriOctets fuel (acc ++ [UInt8.ofNat (x * 16 + y)]) (c.advance 3)
      | _, _ => .error .malformed
    | '%' :: _ => .error .malformed
    | _ => .ok (acc, c)

/-- The name of a type; `acc` holds what was read. -/
def scanUriFrom : (fuel : Nat) → (acc : List Char) → Cursor → Scanned (List Char)
  | 0, _, _ => .error .malformed
  | fuel + 1, acc, c =>
    let (cs, c) := c.takeWhile isUriChar
    if c.sees (· = '%') then
      match scanUriOctets (c.rest.length + 1) [] c with
      | .error e => .error e
      | .ok (octets, c) =>
        match Text.Utf8.decode octets with
        | .ok meant => scanUriFrom fuel (acc ++ cs ++ meant) c
        | .error _ => .error .malformed
    else .ok (acc ++ cs, c)

/-- The name of a type, which is not empty. -/
def scanUri (c : Cursor) : Scanned String :=
  match scanUriFrom (c.rest.length + 1) [] c with
  | .ok ([], _) => .error .malformed
  | .ok (cs, c) => .ok (String.ofList cs, c)
  | .error e => .error e

/-- A handle: one exclamation mark, or a name between two of them. -/
def scanHandle (c : Cursor) : Scanned String :=
  if !c.sees (· = '!') then .error .malformed
  else if (c.peek 1).any (· = ' ') then .ok ("!", c.step)
  else
    let (name, c) := c.step.takeWhile isNameChar
    if c.sees (· = '!') then .ok ("!" ++ String.ofList name ++ "!", c.step) else .error .malformed

/-- Whether the name of a type may end in front of a text. -/
def endsTag (c : Cursor) : Bool := c.endsOrSees 0 fun a => a = ' ' || isBreak a

/-- Whether the name of a type has a handle: a second exclamation mark stands in front of the next
blank. -/
def hasHandle (c : Cursor) : Bool :=
  ((c.rest.drop 1).takeWhile fun a => a ≠ ' ' && !isBreak a).contains '!'

/-- The name of a type. -/
def scanTag (c : Cursor) : Except Fault (Token × Cursor) := do
  let (name, c) ←
    if (c.peek 1).any (· = '<') then do
      let (suffix, c) ← scanUri (c.advance 2)
      if c.sees (· = '>') then pure ((⟨none, suffix⟩ : TagName), c.step) else throw .malformed
    else if c.atGap 1 then pure (⟨none, "!"⟩, c.step)
    else do
      let (handle, c) ← if hasHandle c then scanHandle c else pure ("!", c.step)
      let (suffix, c) ← scanUri c
      pure (⟨some handle, suffix⟩, c)
  if endsTag c then pure (.tag name, c) else throw .malformed

/-! ### Directives -/

/-- A number of a version. -/
def scanVersionNumber (c : Cursor) : Scanned Nat :=
  let (digits, c) := c.takeWhile Char.isDigit
  if digits.isEmpty then .error .malformed else .ok (Json.digitsValue digits, c)

/-- The part of a directive behind its name. -/
def scanDirectiveValue (name : String) (c : Cursor) : Except Fault (Token × Cursor) :=
  if name = "YAML" then do
    let (major, c) ← scanVersionNumber (c.dropWhile (· = ' '))
    if !c.sees (· = '.') then throw .malformed
    let (minor, c) ← scanVersionNumber c.step
    if endsTag c then pure (.versionDirective major minor, c) else throw .malformed
  else if name = "TAG" then do
    let (handle, c) ← scanHandle (c.dropWhile (· = ' '))
    if !c.sees (· = ' ') then throw .malformed
    let (start, c) ← scanUri (c.dropWhile (· = ' '))
    if endsTag c then pure (.tagDirective handle start, c) else throw .malformed
  else pure (.otherDirective, c.dropWhile fun a => !isBreak a)

/-- Read a directive. -/
def scanDirective (s : Scan) : Except Fault Scan := do
  let s ← (s.closeBlocks (-1)).dropKey
  let (name, c) := s.cursor.step.takeWhile isNameChar
  if name.isEmpty || !endsTag c then throw .malformed
  let (t, c) ← scanDirectiveValue (String.ofList name) c
  pure { s.emit t with cursor := ← restOfLine c, keyMayStart := false }

/-! ### The whole text -/

/-- The characters that a plain scalar does not start with, unless it is one of the first three and
something follows it. -/
def plainIndicators : List Char :=
  ['-', '?', ':', ',', '[', ']', '\x7b', '\x7d', '#', '&', '*', '!', '|', '>', '\'', '"', '%', '@', '\x60']

/-- Whether a plain scalar starts here. -/
def startsPlain (s : Scan) (a : Char) : Bool :=
  !(isGap a || plainIndicators.contains a) ||
    (!s.cursor.atGap 1 && (a = '-' || (!s.inFlow && (a = '?' || a = ':'))))

/-- Read what starts with a character. -/
def scanFrom (s : Scan) (a : Char) : Except Fault Scan :=
  let atSign := s.cursor.atGap 1
  let atStart := s.cursor.column = 0
  if a = '%' && atStart then s.scanDirective
  else if a = '-' && atStart && s.cursor.seesMarker '-' then s.scanMarker .documentStart
  else if a = '.' && atStart && s.cursor.seesMarker '.' then s.scanMarker .documentEnd
  else if a = '[' then s.scanOpening .flowSequenceStart
  else if a = '\x7b' then s.scanOpening .flowMappingStart
  else if a = ']' then s.scanClosing .flowSequenceEnd
  else if a = '\x7d' then s.scanClosing .flowMappingEnd
  else if a = ',' then s.scanComma
  else if a = '-' && atSign then s.scanEntry
  else if a = '?' && (s.inFlow || atSign) then s.scanKey
  else if a = ':' && (s.inFlow || atSign) then s.scanValue
  else if a = '*' then s.scanNode (scanAnchor .reference)
  else if a = '&' then s.scanNode (scanAnchor .anchor)
  else if a = '!' then s.scanNode scanTag
  else if a = '|' && !s.inFlow then s.scanBlockNode false
  else if a = '>' && !s.inFlow then s.scanBlockNode true
  else if a = '\'' then s.scanNode (scanQuoted false)
  else if a = '"' then s.scanNode (scanQuoted true)
  else if s.startsPlain a then s.scanPlainNode
  else .error .malformed

/-- Read the next token; nothing is left to read at the end of the text. -/
def next (s : Scan) : Except Fault (Scan × Bool) :=
  match (skipGaps (s.cursor.rest.length + 1) s.skipMark).dropStale with
  | .error e => .error e
  | .ok s =>
    let s := s.closeBlocks s.cursor.column
    match s.cursor.peek 0 with
    | none => s.scanEnd.map fun s => (s, false)
    | some a => (s.scanFrom a).map fun s => (s, true)

/-- Read tokens to the end of the text or to a fault. -/
def readAll : (fuel : Nat) → Scan → Array Token × Option Fault
  | 0, s => (s.tokens, some .malformed)
  | fuel + 1, s =>
    match s.next with
    | .error e => (s.tokens, some e)
    | .ok (s, true) => readAll fuel s
    | .ok (s, false) => (s.tokens, none)

end Scan

/-- Whether a character may stand in a text at all. -/
def isAllowed (c : Char) : Bool :=
  let n := c.toNat
  n = 9 || n = 10 || n = 13 || (0x20 ≤ n && n ≤ 0x7E) || n = 0x85 ||
    (0xA0 ≤ n && n ≤ 0xFFFD) || 0x10000 ≤ n

/-- The tokens of a text, up to its end or to the fault given back. -/
def tokensOf (cs : List Char) : List Token × Option Fault :=
  if cs.all isAllowed then
    let (tokens, fault) := Scan.readAll (cs.length + 2) ⟨⟨cs, 0, 0, 0⟩, #[], 0, -1, [], true, []⟩
    (tokens.toList, fault)
  else ([], some .malformed)

end Concordance.Yaml
