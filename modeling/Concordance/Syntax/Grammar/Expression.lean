import Concordance.Syntax.Grammar.Basic
import Concordance.Syntax.Lexer
import Concordance.Syntax.Quotation

/-!
# The grammar of expressions

Expressions are read by precedence, from the conditional down to names, literals and brackets.
What stands in brackets is an expression again: the readers take the expressions of the next
nesting as a parameter, and `Expressions.nested` ties the knot for as many nestings as asked.

## Main definitions

* `Expressions`: the readers of one nesting
* `Expressions.nested`: the readers for expressions nested up to a bound
* `asTarget?`: an expression as the target of an assignment
-/

namespace Concordance.Syntax

/-- The readers of the expressions of one nesting, and a bound for repetitions. -/
structure Expressions where
  fuel : Nat
  expression : Reader Node
  disjunction : Reader Node
  bitwise : Reader Node
  factor : Reader Node

namespace Expressions

open Reader

variable (e : Expressions)

/-! ### Targets -/

mutual

/-- An expression as a target: names, members and items, and tuples and lists of targets. Within
those a target that is assigned to may be starred. -/
def asTarget? (use : Use) : Node → Option Node
  | .name p id _ => some (.name p id use)
  | .member p v a _ => some (.member p v a use)
  | .subscript p v s _ => some (.subscript p v s use)
  | .tuple p items _ => (asTargets? use items).map fun items => .tuple p items use
  | .plain p .list items => (asTargets? use items).map fun items => .plain p .list items
  | _ => none

/-- The items of a tuple or list as targets. -/
def asTargets? (use : Use) : List Node → Option (List Node)
  | [] => some []
  | .plain p .starred [v] :: rest =>
    if use = .store then
      match asTarget? use v, asTargets? use rest with
      | some v, some rest => some (.plain p .starred [v] :: rest)
      | _, _ => none
    else none
  | n :: rest =>
    match asTarget? use n, asTargets? use rest with
    | some n, some rest => some (n :: rest)
    | _, _ => none

end

/-- An expression as a target that may be starred itself. -/
def asStarTarget? : Node → Option Node
  | .plain p .starred [v] => (asTarget? .store v).map fun v => .plain p .starred [v]
  | n => asTarget? .store n

/-- Turn a missing result into a failure. -/
def required {α : Type} (a : Option α) : Reader α :=
  match a with
  | some a => pure a
  | none => failure

/-! ### Starred and named expressions -/

/-- An expression behind a star. -/
def starredOf (operand : Reader Node) : Reader Node := do
  let start ← peek
  mark "*"
  let v ← operand
  pure (.plain (← placeFrom start) .starred [v])

/-- An expression, or a name with the value it is given. -/
def namedExpression : Reader Node := do
  let start ← peek
  match start.lexeme with
  | .word n =>
    if ← isSecond (.mark ":=") then
      let _ ← advance
      let target := Node.name (← placeFrom start) n .store
      mark ":="
      let value ← e.expression
      pure (.named (← placeFrom start) target value)
    else e.expression
  | _ => e.expression

/-- An item of a list, set or tuple in brackets. -/
def starNamed : Reader Node := do
  if ← atMark "*" then starredOf e.bitwise else e.namedExpression

/-- An item of a tuple without brackets. -/
def starExpression : Reader Node := do
  if ← atMark "*" then starredOf e.bitwise else e.expression

/-- Whether the next token ends a list of expressions. -/
def atListEnd : Reader Bool := do
  match (← peek).lexeme with
  | .newline => pure true
  | .finish => pure true
  | .mark m => pure ([")", "]", "\x7d", ":", "=", ";", ":="].contains m || isAugmented m)
  | .keyword k => pure (k == "in" || k == "for" || k == "from")
  | _ => pure false
where
  /-- Whether a mark assigns to its left side after an operation. -/
  isAugmented (m : String) : Bool :=
    ["+=", "-=", "*=", "@=", "/=", "%=", "&=", "|=", "^=", "<<=", ">>=", "**=", "//="].contains m

/-- A tuple of what `item` reads if there is a comma, otherwise the item itself. -/
def tupleOr (item : Reader Node) : Reader Node := do
  let start ← peek
  let first ← item
  let (comma, rest) ← commaList e.fuel atListEnd item
  if comma then pure (.tuple (← placeFrom start) (first :: rest) .load) else pure first

/-- One expression or a tuple without brackets. -/
def starExpressions : Reader Node := e.tupleOr e.starExpression

/-- The targets of a loop: one, or a tuple of them, each perhaps starred. -/
def starTargets : Reader Node := do
  let item : Reader Node := do
    let n ← if ← atMark "*" then starredOf e.bitwise else e.bitwise
    required (asStarTarget? n)
  let start ← peek
  let first ← item
  let (comma, rest) ← commaList e.fuel atListEnd item
  if comma then pure (.tuple (← placeFrom start) (first :: rest) .store) else pure first

/-- An expression that yields. -/
def yieldExpression : Reader Node := do
  let start ← peek
  keyword "yield"
  if ← acceptKeyword "from" then
    let v ← e.expression
    pure (.plain (← placeFrom start) .yieldingFrom [v])
  else if ← atListEnd then pure (.plain (← placeFrom start) .yielding [])
  else
    let v ← e.starExpressions
    pure (.plain (← placeFrom start) .yielding [v])

/-- What may stand at the right of an assignment. -/
def assigned : Reader Node := do
  if ← atKeyword "yield" then e.yieldExpression else e.starExpressions

/-! ### Comprehensions -/

/-- Whether a clause of a comprehension comes next. -/
def atClause : Reader Bool := do
  if ← atKeyword "for" then pure true
  else if ← atKeyword "async" then isSecond (.keyword "for")
  else pure false

/-- One clause with its conditions. -/
def clause : Reader Node := do
  let _ ← acceptKeyword "async"
  keyword "for"
  let target ← e.starTargets
  keyword "in"
  let iter ← e.disjunction
  let conditions ← while? e.fuel (acceptKeyword "if") e.disjunction
  pure (.generator target iter conditions)

/-- One or more clauses. -/
def clauses : Reader (List Node) := do
  let first ← e.clause
  let rest ← while? e.fuel atClause e.clause
  pure (first :: rest)

/-! ### Parameters -/

/-- Parameters read so far. Whether a parameter is positional, of a name alone or after a default
depends on the marks before it. -/
structure ParameterList where
  positionalOnly : List Node := []
  positional : List Node := []
  rest : Option Node := none
  keywordOnly : List Node := []
  keywordDefaults : List Node := []
  keywordRest : Option Node := none
  defaults : List Node := []
  /-- A star without a name was read, and no parameter behind it yet. -/
  bareStar : Bool := false
  star : Bool := false

/-- The parameters as a node. -/
def ParameterList.node (l : ParameterList) : Node :=
  .parameters l.positionalOnly l.positional l.rest l.keywordOnly l.keywordDefaults l.keywordRest
    l.defaults

/-- A parameter name with its hint, if hints are allowed. -/
def parameterName (hints : Option (Reader Node)) : Reader Node := do
  let start ← peek
  let n ← word
  match hints with
  | some hint =>
    let h ← behind? (.mark ":") hint
    pure (.parameter (← placeFrom start) n h)
  | none => pure (.parameter (← placeFrom start) n none)

/-- Read parameters up to the closing mark, which stays. -/
def parameterList (hints : Bool) (close : String) : Nat → ParameterList → Reader ParameterList
  | 0, _ => failure
  | fuel + 1, l => do
    if ← atMark close then
      if l.bareStar then failure else pure l
    else
      let plainHint := if hints then some e.expression else none
      let l ← item plainHint l
      if ← acceptMark "," then
        if l.keywordRest.isSome then
          if ← atMark close then pure l else failure
        else parameterList hints close fuel l
      else if ← atMark close then
        if l.bareStar then failure else pure l
      else failure
where
  /-- One parameter or separating mark. -/
  item (plainHint : Option (Reader Node)) (l : ParameterList) : Reader ParameterList := do
    if ← acceptMark "/" then
      if l.star || !l.positionalOnly.isEmpty || l.positional.isEmpty then failure
      else pure { l with positionalOnly := l.positional, positional := [] }
    else if ← acceptMark "**" then
      if l.bareStar then failure
      else pure { l with keywordRest := some (← parameterName plainHint) }
    else if ← acceptMark "*" then
      if l.star then failure
      else if ← atMark "," then pure { l with star := true, bareStar := true }
      else
        let starHint := plainHint.map fun _ => e.starExpression
        pure { l with star := true, rest := some (← parameterName starHint) }
    else
      let p ← parameterName plainHint
      let d ← behind? (.mark "=") e.expression
      if l.star then
        pure { l with
          bareStar := false, keywordOnly := l.keywordOnly ++ [p]
          keywordDefaults := l.keywordDefaults ++ d.toList }
      else if d.isNone && !l.defaults.isEmpty then failure
      else pure { l with positional := l.positional ++ [p], defaults := l.defaults ++ d.toList }

/-- A function without a name. -/
def lambdaExpression : Reader Node := do
  let start ← peek
  keyword "lambda"
  let l ← e.parameterList false ":" e.fuel {}
  mark ":"
  let body ← e.expression
  pure (.lambda (← placeFrom start) l.node body)

/-! ### Literals and brackets -/

/-- What stands in round brackets: nothing, one expression, a tuple or a generator. -/
def round : Reader Node := do
  let start ← peek
  mark "("
  if ← acceptMark ")" then pure (.tuple (← placeFrom start) [] .load)
  else if ← atKeyword "yield" then
    let n ← e.yieldExpression
    mark ")"
    pure n
  else
    let first ← e.starNamed
    if ← atClause then
      let gs ← e.clauses
      mark ")"
      match first with
      | .plain _ .starred _ => failure
      | _ => pure (.comprehension (← placeFrom start) .generator [first] gs)
    else
      let (comma, rest) ← commaList e.fuel (atMark ")") e.starNamed
      mark ")"
      match comma, first with
      | true, _ => pure (.tuple (← placeFrom start) (first :: rest) .load)
      | false, .plain _ .starred _ => failure
      | false, _ => pure first

/-- What stands in square brackets: a list or a list comprehension. -/
def square : Reader Node := do
  let start ← peek
  mark "["
  if ← acceptMark "]" then pure (.plain (← placeFrom start) .list [])
  else
    let first ← e.starNamed
    if ← atClause then
      let gs ← e.clauses
      mark "]"
      match first with
      | .plain _ .starred _ => failure
      | _ => pure (.comprehension (← placeFrom start) .list [first] gs)
    else
      let (_, rest) ← commaList e.fuel (atMark "]") e.starNamed
      mark "]"
      pure (.plain (← placeFrom start) .list (first :: rest))

/-- A key with its value, or a dictionary that is spread, which has no key. -/
def entry : Reader (Option Node × Node) := do
  if ← acceptMark "**" then
    let v ← e.bitwise
    pure (none, v)
  else
    let k ← e.expression
    mark ":"
    let v ← e.expression
    pure (some k, v)

/-- Whether a name that is given a value comes next. -/
def atNamed : Reader Bool := do
  match ← wordAhead? with
  | some _ => isSecond (.mark ":=")
  | none => pure false

/-- A dictionary or its comprehension from behind its first entry. -/
def dictFrom (start : Token) (k : Option Node) (v : Node) : Reader Node := do
  match k, ← atClause with
  | some k, true =>
    let gs ← e.clauses
    mark "\x7d"
    pure (.comprehension (← placeFrom start) .dict [k, v] gs)
  | none, true => failure
  | _, false =>
    let (_, rest) ← commaList e.fuel (atMark "\x7d") e.entry
    mark "\x7d"
    let all := (k, v) :: rest
    pure (.dict (← placeFrom start) (all.filterMap Prod.fst) (all.map Prod.snd))

/-- A set or its comprehension from behind its first item. -/
def setFrom (start : Token) (first : Node) : Reader Node := do
  if ← atClause then
    let gs ← e.clauses
    mark "\x7d"
    match first with
    | .plain _ .starred _ => failure
    | _ => pure (.comprehension (← placeFrom start) .set [first] gs)
  else
    let (_, rest) ← commaList e.fuel (atMark "\x7d") e.starNamed
    mark "\x7d"
    pure (.plain (← placeFrom start) .set (first :: rest))

/-- What stands in curly brackets: a dictionary, a set or a comprehension of one of them. -/
def curly : Reader Node := do
  let start ← peek
  mark "\x7b"
  if ← acceptMark "\x7d" then pure (.dict (← placeFrom start) [] [])
  else if ← atMark "**" then
    let (k, v) ← e.entry
    e.dictFrom start k v
  else if (← atMark "*") || (← atNamed) then e.setFrom start (← e.starNamed)
  else
    let first ← e.expression
    if ← acceptMark ":" then e.dictFrom start (some first) (← e.expression)
    else e.setFrom start first

/-- The node of the expression of a field, whose text is read as if it stood in brackets. -/
def fieldExpression (line : Nat) (text : List Char) : Option Node := do
  let tokens ← tokensFrom? line ('(' :: (text ++ [')']))
  (e.round.run ⟨tokens, line⟩).map Prod.fst

mutual

/-- A field as a node, its formats included. -/
def fieldNode (place : Place) : Field → Option Node
  | .mk text line format =>
    match e.fieldExpression line text with
    | none => none
    | some value =>
      match format with
      | none => some (.plain place .formattedValue [value])
      | some nested =>
        match fieldNodes place nested with
        | some ns => some (.plain place .formattedValue [value, .plain place .joinedString ns])
        | none => none

/-- Fields as nodes. -/
def fieldNodes (place : Place) : List Field → Option (List Node)
  | [] => some []
  | f :: rest =>
    match fieldNode place f, fieldNodes place rest with
    | some n, some ns => some (n :: ns)
    | _, _ => none

end

/-- The text ahead, if the next token is one. -/
def quotationAhead? : Reader Bool := do
  match (← get).ahead with
  | t :: _ =>
    match t.lexeme with
    | .quotation _ => pure true
    | _ => pure false
  | [] => pure false

/-- A text token with its line. -/
def quotation : Reader (Nat × Quotation) := do
  let t ← advance
  match t.lexeme with
  | .quotation q => pure (t.line, q)
  | _ => failure

/-- The code points of a text that is neither formatted nor of octets. -/
def plainText (q : Quotation) : Option (List Nat) :=
  if q.raw then some (q.body.map Char.toNat) else unescape? q.body

/-- Texts next to each other are one text. Octets do not mix with characters; one formatted text
makes all of them formatted. -/
def texts : Reader Node := do
  let start ← peek
  let first ← quotation
  let rest ← while? e.fuel quotationAhead? quotation
  let all := first :: rest
  let place ← placeFrom start
  if all.all fun q => q.2.octets then
    let parts ← required (all.mapM fun q => unescapeOctets? q.2.raw q.2.body)
    pure (.constant place (.bytes parts.flatten))
  else if all.any fun q => q.2.octets then failure
  else if all.any fun q => q.2.formatted then
    let parts ← required (all.mapM fun (line, q) =>
      if q.formatted then (fields? q.raw line q.body).bind (e.fieldNodes place)
      else (plainText q).map fun _ => [])
    pure (.plain place .joinedString parts.flatten)
  else
    let parts ← required (all.mapM fun q => plainText q.2)
    pure (.constant place (.ofPoints parts.flatten))

/-- A name, a literal, or something in brackets. -/
def atom : Reader Node := do
  let t ← peek
  match t.lexeme with
  | .word n =>
    let _ ← advance
    pure (.name (← placeFrom t) n .load)
  | .number v =>
    let _ ← advance
    pure (.constant (← placeFrom t) v)
  | .quotation _ => e.texts
  | .keyword "True" => constant t .true
  | .keyword "False" => constant t .false
  | .keyword "None" => constant t .none
  | .mark "..." => constant t .ellipsis
  | .mark "(" => e.round
  | .mark "[" => e.square
  | .mark "\x7b" => e.curly
  | _ => failure
where
  /-- A constant that is one token. -/
  constant (t : Token) (v : Literal) : Reader Node := do
    let _ ← advance
    pure (.constant (← placeFrom t) v)

/-! ### Calls, members and items -/

/-- Which arguments may still come: anything, no plain ones behind a named one, and nothing but
named ones behind a spread dictionary. -/
inductive ArgumentPhase where
  | any
  | named
  | spread
deriving DecidableEq

/-- Whether a name and an equals sign come next. -/
def atKeywordArgument : Reader Bool := do
  match ← wordAhead? with
  | some _ => isSecond (.mark "=")
  | none => pure false

/-- One argument of a call, and what may follow it. -/
def argument (phase : ArgumentPhase) : Reader (ArgumentPhase × Node) := do
  let start ← peek
  if ← acceptMark "**" then
    let v ← e.expression
    pure (.spread, .keyword (← placeFrom start) none v)
  else if ← atMark "*" then
    if phase = .spread then failure else pure (phase, ← starredOf e.expression)
  else if ← atKeywordArgument then
    let n ← word
    mark "="
    let v ← e.expression
    pure (if phase = .any then .named else phase, .keyword (← placeFrom start) (some n) v)
  else if phase ≠ .any then failure
  else
    let n ← e.namedExpression
    if ← atMark "=" then failure else pure (.any, n)

/-- Further arguments behind commas, up to the closing bracket, which stays. -/
def moreArguments : Nat → ArgumentPhase → Reader (List Node)
  | 0, _ => failure
  | fuel + 1, phase => do
    if ← acceptMark "," then
      if ← atMark ")" then pure []
      else
        let (phase, n) ← e.argument phase
        let rest ← moreArguments fuel phase
        pure (n :: rest)
    else pure []

/-- The arguments of a call in their brackets, the keywords apart from the others. Where it is
allowed, a generator that is the only argument needs no brackets of its own. -/
def arguments (bareGenerator : Bool) : Reader (List Node × List Node) := do
  let start ← peek
  mark "("
  if ← acceptMark ")" then pure ([], [])
  else
    let (phase, first) ← e.argument .any
    if bareGenerator && (← atClause) then
      let gs ← e.clauses
      mark ")"
      match first with
      | .keyword .. => failure
      | .plain _ .starred _ => failure
      | _ => pure ([.comprehension (← placeFrom start) .generator [first] gs], [])
    else
      let all := first :: (← e.moreArguments e.fuel phase)
      mark ")"
      pure (all.filter (!isKeyword ·), all.filter isKeyword)
where
  /-- Whether an argument is named or spread. -/
  isKeyword : Node → Bool
    | .keyword .. => true
    | _ => false

/-- One part between the commas of square brackets behind a value. -/
def slicePart : Reader Node := do
  let start ← peek
  if ← atMark "*" then starredOf e.expression
  else
    let named ← atNamed
    let lower ← if ← atMark ":" then pure [] else pure [← e.namedExpression]
    if named then required lower.head?
    else if ← acceptMark ":" then
      let upper ← bound
      let step ← if ← acceptMark ":" then bound else pure []
      pure (.plain (← placeFrom start) .slice (lower ++ upper ++ step))
    else
      match lower with
      | [n] => pure n
      | _ => failure
where
  /-- A bound that may be missing. -/
  bound : Reader (List Node) := do
    if (← atMark ":") || (← atMark ",") || (← atMark "]") then pure []
    else pure [← e.expression]

/-- What stands in square brackets behind a value. -/
def slices : Reader Node := do
  mark "["
  let start ← peek
  let first ← e.slicePart
  let (comma, rest) ← commaList e.fuel (atMark "]") e.slicePart
  let place ← placeFrom start
  mark "]"
  match comma, first with
  | true, _ => pure (.tuple place (first :: rest) .load)
  | false, .plain _ .starred _ => pure (.tuple place [first] .load)
  | false, _ => pure first

/-- Members, items and calls behind a value, for at most `fuel` of them. -/
def trailers (start : Token) : Nat → Node → Reader Node
  | 0, n => pure n
  | fuel + 1, n => do
    if ← acceptMark "." then
      let a ← word
      let n := Node.member (← placeFrom start) n a .load
      trailers start fuel n
    else if ← atMark "(" then
      let (args, keywords) ← e.arguments true
      let n := Node.call (← placeFrom start) n args keywords
      trailers start fuel n
    else if ← atMark "[" then
      let s ← e.slices
      let n := Node.subscript (← placeFrom start) n s .load
      trailers start fuel n
    else pure n

/-- A value with its members, items and calls. -/
def primary : Reader Node := do
  let start ← peek
  let n ← e.atom
  e.trailers start e.fuel n

/-! ### Operators -/

/-- A value that may be awaited. -/
def awaited : Reader Node := do
  let start ← peek
  if ← acceptKeyword "await" then
    let v ← e.primary
    pure (.await (← placeFrom start) v)
  else e.primary

/-- A power. -/
def power : Reader Node := do
  let start ← peek
  let base ← e.awaited
  if ← acceptMark "**" then
    let exponent ← e.factor
    pure (.binary (← placeFrom start) .pow base exponent)
  else pure base

/-- A power behind signs. -/
def signed : Reader Node := do
  let start ← peek
  if [Lexeme.mark "-", .mark "+", .mark "~"].contains start.lexeme then
    let _ ← advance
    let v ← e.factor
    pure (.plain (← placeFrom start) .unaryOp [v])
  else e.power

/-- The binary operators by precedence, the loosest first. -/
def binaryOperators : List (List (String × Operator)) :=
  [[("|", .bitOr)], [("^", .bitXor)], [("&", .bitAnd)],
    [("<<", .leftShift), (">>", .rightShift)], [("+", .add), ("-", .sub)],
    [("*", .mult), ("/", .div), ("//", .floorDiv), ("%", .mod), ("@", .matMult)]]

/-- The operator ahead, if it is one of these. -/
def operatorAhead? (ops : List (String × Operator)) : Reader (Option Operator) := do
  match (← peek).lexeme with
  | .mark m =>
    match ops.lookup m with
    | some op =>
      let _ ← advance
      pure (some op)
    | none => pure none
  | _ => pure none

/-- Further operands, joined to the left. -/
def joinLeft (ops : List (String × Operator)) (operand : Reader Node) (start : Token) :
    Nat → Node → Reader Node
  | 0, n => pure n
  | fuel + 1, n => do
    match ← operatorAhead? ops with
    | none => pure n
    | some op =>
      let r ← operand
      let n := Node.binary (← placeFrom start) op n r
      joinLeft ops operand start fuel n

/-- Operands joined by operators at least as tight as the first level. -/
def operands (operand : Reader Node) : List (List (String × Operator)) → Reader Node
  | [] => operand
  | ops :: tighter => do
    let start ← peek
    let first ← operands operand tighter
    joinLeft ops (operands operand tighter) start e.fuel first

/-- An expression without comparisons. -/
def bitwiseExpression : Reader Node := e.operands e.signed binaryOperators

/-- Take a comparison if one comes next. -/
def acceptComparison : Reader Bool := do
  match (← peek).lexeme with
  | .mark m =>
    if ["==", "!=", "<", "<=", ">", ">="].contains m then
      let _ ← advance
      pure true
    else pure false
  | .keyword "in" => acceptKeyword "in"
  | .keyword "is" =>
    let _ ← advance
    let _ ← acceptKeyword "not"
    pure true
  | .keyword "not" =>
    if ← isSecond (.keyword "in") then
      let _ ← advance
      acceptKeyword "in"
    else pure false
  | _ => pure false

/-- A chain of comparisons. -/
def comparison : Reader Node := do
  let start ← peek
  let first ← e.bitwiseExpression
  match ← while? e.fuel acceptComparison e.bitwiseExpression with
  | [] => pure first
  | rest => pure (.plain (← placeFrom start) .compare (first :: rest))

/-- A comparison behind negations, for at most `fuel` of them. -/
def negation : Nat → Reader Node
  | 0 => failure
  | fuel + 1 => do
    let start ← peek
    if ← acceptKeyword "not" then
      let v ← negation fuel
      pure (.plain (← placeFrom start) .unaryOp [v])
    else e.comparison

/-- Operands joined by a reserved word into one node. -/
def joined (k : String) (operand : Reader Node) : Reader Node := do
  let start ← peek
  let first ← operand
  match ← while? e.fuel (acceptKeyword k) operand with
  | [] => pure first
  | rest => pure (.plain (← placeFrom start) .boolOp (first :: rest))

/-- Conjunctions joined by `or`. -/
def disjunctionExpression : Reader Node :=
  e.joined "or" (e.joined "and" (e.negation e.fuel))

/-- A whole expression: a conditional or a function without a name. -/
def conditional : Reader Node := do
  if ← atKeyword "lambda" then e.lambdaExpression
  else
    let start ← peek
    let body ← e.disjunctionExpression
    if ← acceptKeyword "if" then
      let test ← e.disjunctionExpression
      keyword "else"
      let orElse ← e.expression
      pure (.plain (← placeFrom start) .ifExp [test, body, orElse])
    else pure body

/-- The readers of expressions whose brackets are nested less often than `n`. -/
def nested : Nat → Expressions
  | 0 => ⟨0, failure, failure, failure, failure⟩
  | n + 1 =>
    { fuel := n + 1
      expression := fun c => (nested n).conditional c
      disjunction := fun c => (nested n).disjunctionExpression c
      bitwise := fun c => (nested n).bitwiseExpression c
      factor := fun c => (nested n).signed c }

end Expressions

end Concordance.Syntax
