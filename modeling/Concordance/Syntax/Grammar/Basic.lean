import Concordance.Syntax.Token

/-!
# Reading tokens

The means by which the grammar is written down: a reader takes tokens from the front and fails or
answers. A reader that fails has taken nothing, so that alternatives can be tried in order.

## Main definitions

* `Cursor`, `Reader`: the tokens ahead, and what reads them
* `Reader.mark`, `Reader.keyword`, `Reader.word`: single tokens
* `Reader.while?`, `Reader.separated`: repetition
-/

namespace Concordance.Syntax

/-- The tokens ahead, and the line on which the last token taken ended, those of the layout
apart. -/
structure Cursor where
  ahead : List Token
  lastLine : Nat := 0

/-- What reads tokens. -/
abbrev Reader (α : Type) := StateT Cursor Option α

namespace Reader

variable {α β : Type}

/-- The next token, which stays where it is. -/
def peek : Reader Token := do
  match (← get).ahead with
  | t :: _ => pure t
  | [] => failure

/-- Take the next token. -/
def advance : Reader Token := do
  match (← get).ahead with
  | t :: rest =>
    modify fun c => ⟨rest, if t.lexeme.isLayout then c.lastLine else t.lastLine⟩
    pure t
  | [] => failure

/-- Whether the next token is this one. -/
def isNext (l : Lexeme) : Reader Bool := do
  match (← get).ahead with
  | t :: _ => pure (t.lexeme == l)
  | [] => pure false

/-- Whether the next token is this operator or delimiter. -/
def atMark (m : String) : Reader Bool := isNext (.mark m)

/-- Whether the next token is this reserved word. -/
def atKeyword (k : String) : Reader Bool := isNext (.keyword k)

/-- Take the token if it is the next one. -/
def accept (l : Lexeme) : Reader Bool := do
  if ← isNext l then
    let _ ← advance
    pure true
  else pure false

/-- Take this token or fail. -/
def expect (l : Lexeme) : Reader Unit := do
  if ← accept l then pure () else failure

/-- Take this operator or delimiter. -/
def mark (m : String) : Reader Unit := expect (.mark m)

/-- Take this reserved word. -/
def keyword (k : String) : Reader Unit := expect (.keyword k)

/-- Take this operator or delimiter if it is next. -/
def acceptMark (m : String) : Reader Bool := accept (.mark m)

/-- Take this reserved word if it is next. -/
def acceptKeyword (k : String) : Reader Bool := accept (.keyword k)

/-- Take a name. -/
def word : Reader String := do
  match (← advance).lexeme with
  | .word n => pure n
  | _ => failure

/-- The name ahead, if one is. -/
def wordAhead? : Reader (Option String) := do
  match (← get).ahead with
  | t :: _ =>
    match t.lexeme with
    | .word n => pure (some n)
    | _ => pure none
  | [] => pure none

/-- Whether the token after the next one is this one. -/
def isSecond (l : Lexeme) : Reader Bool := do
  match (← get).ahead with
  | _ :: t :: _ => pure (t.lexeme == l)
  | _ => pure false

/-- The place of a node that starts at a token and ends with the last token taken. -/
def placeFrom (start : Token) : Reader Place := do
  pure ⟨start.line, start.column, (← get).lastLine⟩

/-- Read behind a token, if the token is next. -/
def behind? (l : Lexeme) (r : Reader α) : Reader (Option α) := do
  if ← accept l then some <$> r else pure none

/-- Read as often as `go` says, for at most `fuel` times. -/
def while? (fuel : Nat) (go : Reader Bool) (r : Reader α) : Reader (List α) :=
  match fuel with
  | 0 => pure []
  | fuel + 1 => do
    if ← go then
      let a ← r
      let rest ← while? fuel go r
      pure (a :: rest)
    else pure []

/-- One or more with commas between them. -/
def separated (fuel : Nat) (r : Reader α) : Reader (List α) := do
  let first ← r
  let rest ← while? fuel (acceptMark ",") r
  pure (first :: rest)

/-- Further items behind commas, up to a token at which no item can start; whether a comma was
read counts as well, and one comma may stand at the end. -/
def commaList (fuel : Nat) (ends : Reader Bool) (r : Reader α) : Reader (Bool × List α) := do
  match fuel with
  | 0 => pure (false, [])
  | fuel + 1 =>
    if ← acceptMark "," then
      if ← ends then pure (true, [])
      else
        let a ← r
        let (_, rest) ← commaList fuel ends r
        pure (true, a :: rest)
    else pure (false, [])

end Reader

end Concordance.Syntax
