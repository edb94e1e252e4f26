import Concordance.Syntax.Grammar.Expression

/-!
# The grammar of patterns

The patterns of a case: captures, literals, values, sequences, mappings, classes and alternatives
of them.

## Main definitions

* `Patterns.nested`: the readers for patterns nested up to a bound
* `Patterns.casePattern`: what stands behind `case`
-/

namespace Concordance.Syntax

/-- The reader of the patterns of one nesting, with the readers of expressions and a bound for
repetitions. -/
structure Patterns where
  fuel : Nat
  expressions : Expressions
  pattern : Reader Node

namespace Patterns

open Reader Expressions

variable (p : Patterns)

/-- Whether one of these marks comes next. -/
def atAnyMark (ms : List String) : Reader Bool := do
  match (← peek).lexeme with
  | .mark m => pure (ms.contains m)
  | _ => pure false

/-- The name of a capture: any but the underscore, and not the start of something longer. -/
def captureName : Reader String := do
  let n ← word
  if n = "_" then failure
  else if ← atAnyMark [".", "(", "="] then failure
  else pure n

/-- A number, perhaps negative. -/
def signedNumber : Reader (Node × Literal) := do
  let start ← peek
  let negative ← acceptMark "-"
  let t ← advance
  match t.lexeme with
  | .number v =>
    let n := Node.constant (← placeFrom t) v
    if negative then pure (.plain (← placeFrom start) .unaryOp [n], v) else pure (n, v)
  | _ => failure

/-- Whether a number is imaginary. -/
def isImaginary : Literal → Bool
  | .imaginary .. => true
  | _ => false

/-- A number as a pattern or key: real, imaginary, or a sum of the two. -/
def numberValue : Reader Node := do
  let start ← peek
  let (n, v) ← signedNumber
  match ← operatorAhead? [("+", .add), ("-", .sub)] with
  | none => pure n
  | some op =>
    let t ← advance
    match t.lexeme with
    | .number w =>
      if isImaginary v || !isImaginary w then failure
      else
        let r := Node.constant (← placeFrom t) w
        pure (.binary (← placeFrom start) op n r)
    | _ => failure

/-- A name with members behind it. -/
def dottedName : Reader Node := do
  let start ← peek
  let n ← word
  let first := Node.name (← placeFrom start) n .load
  members start p.fuel first
where
  /-- Further members. -/
  members (start : Token) : Nat → Node → Reader Node
    | 0, n => pure n
    | fuel + 1, n => do
      if ← acceptMark "." then
        let a ← word
        let n := Node.member (← placeFrom start) n a .load
        members start fuel n
      else pure n

/-- Whether the next token is one of the constants that are tested for identity. -/
def singleton? : Reader Bool := do
  match (← peek).lexeme with
  | .keyword k => pure (["None", "True", "False"].contains k)
  | _ => pure false

/-- A pattern behind a star. -/
def starPattern : Reader Node := do
  let start ← peek
  mark "*"
  let n ← word
  if ← atAnyMark [".", "(", "="] then failure
  else pure (.matchStar (← placeFrom start) (if n = "_" then none else some n))

/-- An item of a sequence. -/
def item : Reader Node := do
  if ← atMark "*" then starPattern else p.pattern

/-- A sequence or a pattern in round brackets. -/
def roundPattern : Reader Node := do
  let start ← peek
  mark "("
  if ← acceptMark ")" then pure (.plain (← placeFrom start) .matchSequence [])
  else
    let first ← p.item
    let (comma, rest) ← commaList p.fuel (atMark ")") p.item
    mark ")"
    match comma, first with
    | false, .matchStar .. => failure
    | false, _ => pure first
    | true, _ => pure (.plain (← placeFrom start) .matchSequence (first :: rest))

/-- A sequence in square brackets. -/
def squarePattern : Reader Node := do
  let start ← peek
  mark "["
  if ← acceptMark "]" then pure (.plain (← placeFrom start) .matchSequence [])
  else
    let first ← p.item
    let (_, rest) ← commaList p.fuel (atMark "]") p.item
    mark "]"
    pure (.plain (← placeFrom start) .matchSequence (first :: rest))

/-- The key of a mapping. -/
def mappingKey : Reader Node := do
  let t ← peek
  match t.lexeme with
  | .quotation _ => p.expressions.texts
  | .number _ => numberValue
  | .mark "-" => numberValue
  | .keyword _ => if ← singleton? then p.expressions.atom else failure
  | .word _ =>
    match ← p.dottedName with
    | .name .. => failure
    | n => pure n
  | _ => failure

/-- The entries of a mapping up to its end: keys, patterns and the name for what is left. -/
def mappingEntries : Nat → Reader (List Node × List Node × Option String)
  | 0 => failure
  | fuel + 1 => do
    if ← acceptMark "\x7d" then pure ([], [], none)
    else if ← acceptMark "**" then
      let n ← captureName
      let _ ← acceptMark ","
      mark "\x7d"
      pure ([], [], some n)
    else
      let k ← p.mappingKey
      mark ":"
      let v ← p.pattern
      if ← acceptMark "," then
        let (ks, vs, rest) ← mappingEntries fuel
        pure (k :: ks, v :: vs, rest)
      else
        mark "\x7d"
        pure ([k], [v], none)

/-- A mapping. -/
def mappingPattern : Reader Node := do
  let start ← peek
  mark "\x7b"
  let (keys, patterns, rest) ← p.mappingEntries p.fuel
  pure (.matchMapping (← placeFrom start) keys patterns rest)

/-- The arguments of a class pattern up to the end: the plain ones, then the named ones. -/
def classArguments : Nat → Bool → Reader (List Node × List Node)
  | 0, _ => failure
  | fuel + 1, named => do
    if ← acceptMark ")" then pure ([], [])
    else
      let isNamed ← atKeywordArgument
      if named && !isNamed then failure
      else
        if isNamed then
          let _ ← word
          mark "="
        let n ← p.pattern
        let (plains, nameds) ←
          if ← acceptMark "," then classArguments fuel isNamed
          else
            mark ")"
            pure ([], [])
        pure (if isNamed then (plains, n :: nameds) else (n :: plains, nameds))

/-- A pattern that starts with a name: a capture, the wildcard, a value or a class. -/
def namePattern : Reader Node := do
  let start ← peek
  let n ← p.dottedName
  if ← acceptMark "(" then
    let (plains, nameds) ← p.classArguments p.fuel false
    pure (.plain (← placeFrom start) .matchClass (n :: (plains ++ nameds)))
  else if ← atMark "=" then failure
  else
    let place ← placeFrom start
    match n with
    | .name _ id _ => pure (.matchAs place none (if id = "_" then none else some id))
    | _ => pure (.plain place .matchValue [n])

/-- A pattern that is no alternative. -/
def closedPattern : Reader Node := do
  let t ← peek
  match t.lexeme with
  | .number _ => value t numberValue
  | .mark "-" => value t numberValue
  | .quotation _ => value t p.expressions.texts
  | .keyword _ =>
    if ← singleton? then
      let _ ← advance
      pure (.plain (← placeFrom t) .matchSingleton [])
    else failure
  | .word _ => p.namePattern
  | .mark "(" => p.roundPattern
  | .mark "[" => p.squarePattern
  | .mark "\x7b" => p.mappingPattern
  | _ => failure
where
  /-- A pattern that compares with a value. -/
  value (t : Token) (r : Reader Node) : Reader Node := do
    let n ← r
    pure (.plain (← placeFrom t) .matchValue [n])

/-- Alternatives, perhaps with a name for what was matched. -/
def wholePattern : Reader Node := do
  let start ← peek
  let first ← p.closedPattern
  let rest ← while? p.fuel (acceptMark "|") p.closedPattern
  let n ← if rest.isEmpty then pure first
    else pure (.plain (← placeFrom start) .matchOr (first :: rest))
  if ← acceptKeyword "as" then
    let name ← captureName
    pure (.matchAs (← placeFrom start) (some n) (some name))
  else pure n

/-- What stands behind `case`: a pattern, or a sequence without brackets. -/
def casePattern : Reader Node := do
  let start ← peek
  let first ← p.item
  let ends : Reader Bool := do
    if ← atMark ":" then pure true else atKeyword "if"
  let (comma, rest) ← commaList p.fuel ends p.item
  match comma, first with
  | false, .matchStar .. => failure
  | false, _ => pure first
  | true, _ => pure (.plain (← placeFrom start) .matchSequence (first :: rest))

/-- The readers of patterns nested less often than `n`. -/
def nested (e : Expressions) : Nat → Patterns
  | 0 => ⟨0, e, failure⟩
  | n + 1 => ⟨n + 1, e, fun c => (nested e n).wholePattern c⟩

end Patterns

end Concordance.Syntax
