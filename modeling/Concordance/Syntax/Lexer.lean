import Concordance.Syntax.Number
import Concordance.Syntax.Token
import Concordance.Text.Compatibility
import Concordance.Text.Identifier

/-!
# Lexical analysis

Text is split into tokens line by line. The blanks at the start of a line give its indentation,
measured twice: with tabs that go on to the next multiple of eight, and with tabs as wide as one
blank; the two measures must agree on how lines are nested. Lines inside brackets, empty lines and
lines with a comment alone have no indentation. A backslash joins a line with the next one.

## Main definitions

* `Lexer`: the state of the analysis
* `tokensFrom?`: the tokens of a text, or nothing if it has none
-/

namespace Concordance.Syntax

/-- Where the analysis stands. The indentations and brackets are those that are open, the
innermost first; the tokens are the ones read, last first. -/
structure Lexer where
  rest : List Char
  line : Nat := 0
  column : Nat := 0
  indents : List (Nat × Nat) := [(0, 0)]
  brackets : List Char := []
  tokens : List Token := []
  /-- Whether the next character is the first of a line. -/
  lineStart : Bool := true
  /-- Whether the line holds nothing but blanks and a comment. -/
  blankLine : Bool := false

namespace Lexer

/-- How deeply brackets may be nested. -/
def maxBrackets : Nat := 200

/-- How many indentations may be open, the outermost included. -/
def maxIndents : Nat := 100

/-- The line and column after some characters. -/
def after (line column : Nat) : List Char → Nat × Nat
  | [] => (line, column)
  | '\n' :: rest => after (line + 1) 0 rest
  | c :: rest => after line (column + c.utf8Size) rest

/-- Take a token whose characters are `text`. -/
def take (s : Lexer) (lexeme : Lexeme) (text rest : List Char) : Lexer :=
  let (line, column) := after s.line s.column text
  { s with
    rest, line, column
    tokens := ⟨lexeme, s.line, s.column, line⟩ :: s.tokens }

/-- Take a token without characters of its own. -/
def insert (s : Lexer) (lexeme : Lexeme) : Lexer :=
  { s with tokens := ⟨lexeme, s.line, s.column, s.line⟩ :: s.tokens }

/-! ### The start of a line -/

/-- The indentation of a line in both measures, and whether it is settled by a joined line. -/
structure Margin where
  wide : Nat := 0
  narrow : Nat := 0
  settled : Option Nat := none

/-- Read the blanks at the start of a line. A backslash at the end of the line carries on with the
next one, where the first indentation that is not zero counts. -/
def readMargin? : Margin → Lexer → List Char → Option (Margin × Lexer)
  | m, s, ' ' :: rest =>
    readMargin? { m with wide := m.wide + 1, narrow := m.narrow + 1 }
      { s with column := s.column + 1 } rest
  | m, s, '\t' :: rest =>
    readMargin? { m with wide := (m.wide / 8 + 1) * 8, narrow := m.narrow + 1 }
      { s with column := s.column + 1 } rest
  | m, s, '\x0c' :: rest =>
    readMargin? { m with wide := 0, narrow := 0 } { s with column := s.column + 1 } rest
  | m, s, '\\' :: rest =>
    match rest with
    | '\n' :: c :: rest =>
      let settled := if m.settled.getD 0 = 0 then some m.wide else m.settled
      readMargin? { m with settled } { s with line := s.line + 1, column := 0 } (c :: rest)
    | _ => none
  | m, s, rest => some (m, { s with rest })

/-- Close the indentations that are wider than a line. -/
def closeIndents (wide : Nat) : List (Nat × Nat) → Nat × List (Nat × Nat)
  | [] => (0, [])
  | i :: outer =>
    if wide < i.1 then
      let (n, left) := closeIndents wide outer
      (n + 1, left)
    else (0, i :: outer)

/-- Compare the indentation of a line with those that are open. -/
def indent? (s : Lexer) (wide narrow : Nat) : Option Lexer :=
  match s.indents with
  | [] => none
  | (w, n) :: outer =>
    if wide = w then (if narrow = n then some s else none)
    else if w < wide then
      if maxIndents ≤ outer.length + 1 then none
      else if narrow ≤ n then none
      else some ({ s with indents := (wide, narrow) :: s.indents }.insert .indent)
    else
      match closeIndents wide s.indents with
      | (closed, (w, n) :: outer) =>
        if wide = w ∧ narrow = n then
          some ((List.range closed).foldl (fun s _ => s.insert .dedent)
            { s with indents := (w, n) :: outer })
        else none
      | _ => none

/-- Begin a line. -/
def beginLine? (s : Lexer) : Option Lexer := do
  let (m, s) ← readMargin? {} s s.rest
  let s := { s with lineStart := false }
  match s.rest with
  | '#' :: _ => some { s with blankLine := true }
  | '\n' :: _ => some { s with blankLine := true }
  | _ =>
    let s := { s with blankLine := false }
    if s.brackets.isEmpty then
      match m.settled with
      | some c => if c = 0 then s.indent? m.wide m.narrow else s.indent? c c
      | none => s.indent? m.wide m.narrow
    else some s

/-! ### Single tokens -/

/-- Whether a character can be part of a word before it is looked at closely. -/
def isWordChar (c : Char) : Bool := c.isAlphanum || c == '_' || 0x80 ≤ c.toNat

/-- The letters in front of a text, if that is what they are: each at most once, the letter of old
texts only alone, octets and format not together. `count` counts them. -/
def quotationPrefix? (octets raw old formatted : Bool) (count : Nat) :
    List Char → Option (Quotation × Nat × List Char)
  | '\'' :: rest => some (⟨octets, raw, formatted, []⟩, count, '\'' :: rest)
  | '"' :: rest => some (⟨octets, raw, formatted, []⟩, count, '"' :: rest)
  | c :: rest =>
    let low := c.toLower
    if low = 'b' ∧ !octets ∧ !old ∧ !formatted then
      quotationPrefix? true raw old formatted (count + 1) rest
    else if low = 'u' ∧ !octets ∧ !old ∧ !raw ∧ !formatted then
      quotationPrefix? octets raw true formatted (count + 1) rest
    else if low = 'r' ∧ !raw ∧ !old then
      quotationPrefix? octets true old formatted (count + 1) rest
    else if low = 'f' ∧ !formatted ∧ !octets ∧ !old then
      quotationPrefix? octets raw old true (count + 1) rest
    else none
  | [] => none

/-- The body of a text in single quotes, up to the quote and on one line. The characters read are
kept last first. -/
def readShort? (quote : Char) (acc : List Char) : List Char → Option (List Char × List Char)
  | [] => none
  | '\\' :: c :: rest => readShort? quote (c :: '\\' :: acc) rest
  | c :: rest =>
    if c = quote then some (acc.reverse, rest)
    else if c = '\n' then none
    else readShort? quote (c :: acc) rest

/-- The body of a text in tripled quotes. The characters read are kept last first. -/
def readLong? (quote : Char) (acc : List Char) : List Char → Option (List Char × List Char)
  | [] => none
  | '\\' :: c :: rest => readLong? quote (c :: '\\' :: acc) rest
  | c :: rest =>
    if c = quote ∧ [quote, quote].isPrefixOf rest then some (acc.reverse, rest.drop 2)
    else readLong? quote (c :: acc) rest

/-- The body of a text from its opening quote on: how many characters each of its quotes has, the
body, and what follows. -/
def readQuoted? : List Char → Option (Nat × List Char × List Char)
  | q :: rest =>
    if [q, q].isPrefixOf rest then (readLong? q [] (rest.drop 2)).map fun r => (3, r)
    else (readShort? q [] rest).map fun r => (1, r)
  | [] => none

/-- A text with its letters and quotes. -/
def takeQuotation? (s : Lexer) (q : Quotation) (letters : Nat) (quoted : List Char) :
    Option Lexer :=
  match readQuoted? quoted with
  | none => none
  | some (quotes, body, rest) =>
    let (line, column) := after s.line (s.column + letters + quotes) body
    some { s with
      rest, line, column := column + quotes
      tokens := ⟨.quotation { q with body }, s.line, s.column, line⟩ :: s.tokens }

/-- A number: what it consists of is looked for in the letters, digits, points and signs ahead. -/
def takeNumber? (s : Lexer) : Option Lexer :=
  let ahead := s.rest.takeWhile fun c => isWordChar c || c = '.' || c = '+' || c = '-'
  match readNumber? ahead with
  | none => none
  | some (value, left) =>
    let size := ahead.length - left.length
    some (s.take (.number value) (ahead.take size) (s.rest.drop size))

/-- A word: a reserved one or a name. -/
def takeWord? (s : Lexer) : Option Lexer :=
  let text := s.rest.takeWhile isWordChar
  let rest := s.rest.dropWhile isWordChar
  let name := String.ofList text
  if name ∈ keywords then some (s.take (.keyword name) text rest)
  else if text.all fun c => c.toNat < 0x80 then some (s.take (.word name) text rest)
  else if Text.isIdentifier text then some (s.take (.word (Text.normalize name)) text rest)
  else none

/-- The bracket that closes a bracket. -/
def closing (c : Char) : Char :=
  if c = '(' then ')' else if c = '[' then ']' else '\x7d'

/-- An operator or delimiter; brackets are counted. -/
def takeMarkToken? (s : Lexer) : Option Lexer :=
  match takeMark? s.rest with
  | none => none
  | some (text, rest) =>
    let s' := s.take (.mark (String.ofList text)) text rest
    match text with
    | [c] =>
      if c = '(' || c = '[' || c = '\x7b' then
        if s.brackets.length < maxBrackets then some { s' with brackets := c :: s.brackets }
        else none
      else if c = ')' || c = ']' || c = '\x7d' then
        match s.brackets with
        | [] => none
        | b :: outer => if closing b = c then some { s' with brackets := outer } else none
      else some s'
    | _ => some s'

/-! ### The whole text -/

/-- One step at a character that is no blank. `none` is an error. -/
def step? (s : Lexer) (c : Char) (rest : List Char) : Option Lexer :=
  if c = '#' then
    let text := s.rest.takeWhile (· ≠ '\n')
    some { s with rest := s.rest.dropWhile (· ≠ '\n'), column := (after 0 s.column text).2 }
  else if c = '\n' then
    let next := { s with rest, line := s.line + 1, column := 0, lineStart := true }
    if s.blankLine || !s.brackets.isEmpty then some next
    else some { next with tokens := ⟨.newline, s.line, s.column, s.line⟩ :: s.tokens }
  else if c = '\\' then
    match rest with
    | '\n' :: more =>
      if more.isEmpty then none else some { s with rest := more, line := s.line + 1, column := 0 }
    | _ => none
  else if c.isDigit || (c = '.' && rest.head?.any Char.isDigit) then s.takeNumber?
  else if c = '\'' || c = '"' || isWordChar c then
    match quotationPrefix? false false false false 0 s.rest with
    | some (q, letters, quoted) => s.takeQuotation? q letters quoted
    | none => s.takeWord?
  else s.takeMarkToken?

/-- Whether a character only separates tokens. -/
def isGap (c : Char) : Bool := c = ' ' || c = '\t' || c = '\x0c'

/-- Run the analysis to the end of the text, for at most `fuel` steps. -/
def run? : Nat → Lexer → Option Lexer
  | 0, _ => none
  | fuel + 1, s =>
    match if s.lineStart then s.beginLine? else some s with
    | none => none
    | some s =>
      match s.rest with
      | [] =>
        if s.brackets.isEmpty then
          some <| ((List.range (s.indents.length - 1)).foldl (fun s _ => s.insert .dedent)
            s).insert .finish
        else none
      | c :: rest =>
        if isGap c then run? fuel { s with rest, column := s.column + 1 }
        else
          match s.step? c rest with
          | some s => run? fuel s
          | none => none

end Lexer

/-- All line ends as line feeds. -/
def unifyLineEnds : List Char → List Char
  | [] => []
  | '\r' :: '\n' :: rest => '\n' :: unifyLineEnds rest
  | '\r' :: rest => '\n' :: unifyLineEnds rest
  | c :: rest => c :: unifyLineEnds rest

/-- A text that ends its last line. -/
def endLastLine (cs : List Char) : List Char :=
  match cs.getLast? with
  | some '\n' => cs
  | none => cs
  | _ => cs ++ ['\n']

/-- The tokens of a text whose first line has the given number. -/
def tokensFrom? (line : Nat) (cs : List Char) : Option (List Token) :=
  let cs := endLastLine (unifyLineEnds cs)
  (Lexer.run? (2 * cs.length + 2) { rest := cs, line }).map fun s => s.tokens.reverse

end Concordance.Syntax
