import Concordance.Syntax.Grammar.Pattern

/-!
# The grammar of statements

Simple statements end with their line or a semicolon; compound ones hold blocks, which are either
indented or simple statements on the same line. A block is read as a parameter of the statements
of one nesting, and `Statements.nested` ties the knot.

## Main definitions

* `Statements.nested`: the readers of statements nested up to a bound
* `moduleBody`: a whole module
-/

namespace Concordance.Syntax

/-- The reader of the blocks of one nesting, with the readers of what statements hold. -/
structure Statements where
  fuel : Nat
  expressions : Expressions
  patterns : Patterns
  block : Reader (List Node)

namespace Statements

open Reader Expressions

variable (s : Statements)

/-! ### Simple statements -/

/-- The operators that assign to their left side. -/
def augmentedOperators : List (String × Operator) :=
  [("+=", .add), ("-=", .sub), ("*=", .mult), ("@=", .matMult), ("/=", .div), ("%=", .mod),
    ("&=", .bitAnd), ("|=", .bitOr), ("^=", .bitXor), ("<<=", .leftShift), (">>=", .rightShift),
    ("**=", .pow), ("//=", .floorDiv)]

/-- A name, member or item as a target. -/
def singleTarget? : Node → Option Node
  | .name p id _ => some (.name p id .store)
  | .member p v a _ => some (.member p v a .store)
  | .subscript p v i _ => some (.subscript p v i .store)
  | _ => none

/-- Further right sides of an assignment. All but the last are targets. -/
def assignments : Nat → Node → Reader (List Node × Node)
  | 0, _ => failure
  | fuel + 1, value => do
    if ← acceptMark "=" then
      let target ← required (asStarTarget? value)
      let next ← s.expressions.assigned
      let (targets, value) ← assignments fuel next
      pure (target :: targets, value)
    else pure ([], value)

/-- An expression as a statement, or an assignment of one of the three forms. -/
def expressionStatement : Reader Node := do
  let start ← peek
  let first ← s.expressions.assigned
  if ← acceptMark ":" then
    let target ← required (singleTarget? first)
    let hint ← s.expressions.expression
    let value ← behind? (.mark "=") s.expressions.assigned
    pure (.annAssign (← placeFrom start) target hint value)
  else
    match ← operatorAhead? augmentedOperators with
    | some op =>
      let target ← required (singleTarget? first)
      let value ← s.expressions.assigned
      pure (.augAssign (← placeFrom start) target op value)
    | none =>
      let (targets, value) ← s.assignments s.fuel first
      if targets.isEmpty then pure (.plain (← placeFrom start) .expression [value])
      else pure (.assign (← placeFrom start) targets value)

/-- A dotted module name. -/
def moduleName : Reader String := do
  let first ← word
  let rest ← while? s.fuel (acceptMark ".") word
  pure (".".intercalate (first :: rest))

/-- A name with the name it is given. -/
def importedAs (name : Reader String) : Reader Alias := do
  let n ← name
  let a ← behind? (.keyword "as") word
  pure ⟨n, a⟩

/-- The dots in front of a relative module name. -/
def dots : Nat → Reader Nat
  | 0 => pure 0
  | fuel + 1 => do
    if ← acceptMark "." then return (← dots fuel) + 1
    else if ← acceptMark "..." then return (← dots fuel) + 3
    else pure 0

/-- The names that are imported from a module. -/
def importedNames : Reader (List Alias) := do
  if ← acceptMark "*" then pure [⟨"*", none⟩]
  else if ← acceptMark "(" then
    let first ← importedAs word
    let (_, rest) ← commaList s.fuel (atMark ")") (importedAs word)
    mark ")"
    pure (first :: rest)
  else separated s.fuel (importedAs word)

/-- An import of names from a module. -/
def importFromStatement (start : Token) : Reader Node := do
  keyword "from"
  let level ← dots s.fuel
  let source ← if ← atKeyword "import" then
      if level = 0 then failure else pure none
    else some <$> s.moduleName
  keyword "import"
  let names ← s.importedNames
  pure (.importFrom (← placeFrom start) source names level)

/-- The targets of a deletion. -/
def deletion : Reader (List Node) := do
  let item : Reader Node := do
    let n ← s.expressions.bitwise
    required (asTarget? .delete n)
  let first ← item
  let (_, rest) ← commaList s.fuel atListEnd item
  pure (first :: rest)

/-- Whether a simple statement ends here. -/
def atSimpleEnd : Reader Bool := do
  if ← isNext .newline then pure true else atMark ";"

/-- A statement without a block. -/
def simpleStatement : Reader Node := do
  let start ← peek
  let plain := fun (form : Form) (parts : List Node) => do
    pure (Node.plain (← placeFrom start) form parts)
  match start.lexeme with
  | .keyword "return" =>
    let _ ← advance
    if ← atSimpleEnd then plain .returning []
    else
      let v ← s.expressions.starExpressions
      plain .returning [v]
  | .keyword "import" =>
    let _ ← advance
    let names ← separated s.fuel (importedAs s.moduleName)
    pure (.importModules (← placeFrom start) names)
  | .keyword "from" => s.importFromStatement start
  | .keyword "raise" =>
    let _ ← advance
    if ← atSimpleEnd then plain .raising []
    else
      let v ← s.expressions.expression
      let cause ← behind? (.keyword "from") s.expressions.expression
      plain .raising (v :: cause.toList)
  | .keyword "pass" =>
    let _ ← advance
    plain .passing []
  | .keyword "break" =>
    let _ ← advance
    plain .breaking []
  | .keyword "continue" =>
    let _ ← advance
    plain .continuing []
  | .keyword "del" =>
    let _ ← advance
    let targets ← s.deletion
    plain .deleting targets
  | .keyword "assert" =>
    let _ ← advance
    let test ← s.expressions.expression
    let text ← behind? (.mark ",") s.expressions.expression
    plain .asserting (test :: text.toList)
  | .keyword "global" =>
    let _ ← advance
    let names ← separated s.fuel word
    pure (.outerNames (← placeFrom start) true names)
  | .keyword "nonlocal" =>
    let _ ← advance
    let names ← separated s.fuel word
    pure (.outerNames (← placeFrom start) false names)
  | _ => s.expressionStatement

/-- Simple statements up to the end of the line. -/
def simpleStatements : Nat → Reader (List Node)
  | 0 => failure
  | fuel + 1 => do
    let n ← s.simpleStatement
    if ← acceptMark ";" then
      if ← accept .newline then pure [n]
      else
        let rest ← simpleStatements fuel
        pure (n :: rest)
    else
      expect .newline
      pure [n]

/-! ### Compound statements -/

/-- A block behind its colon. -/
def suite : Reader (List Node) := do
  mark ":"
  s.block

/-- A block behind a reserved word and a colon, if the word comes next. -/
def suiteBehind (k : String) : Reader (List Node) := do
  if ← acceptKeyword k then s.suite else pure []

/-- What follows the test of a branch: its block and the other branches. -/
def branchFrom (start : Token) : Nat → Reader Node
  | 0 => failure
  | fuel + 1 => do
    let test ← s.expressions.namedExpression
    let body ← s.suite
    let next ← peek
    if ← acceptKeyword "elif" then
      let other ← branchFrom next fuel
      pure (.branch (← placeFrom start) test body [other])
    else
      let orElse ← s.suiteBehind "else"
      pure (.branch (← placeFrom start) test body orElse)

/-- A loop as long as a test holds. -/
def whileStatement (start : Token) : Reader Node := do
  let test ← s.expressions.namedExpression
  let body ← s.suite
  let orElse ← s.suiteBehind "else"
  pure (.plain (← placeFrom start) .whileLoop (test :: (body ++ orElse)))

/-- A loop over what an expression yields. -/
def forStatement (start : Token) (async : Bool) : Reader Node := do
  let target ← s.expressions.starTargets
  keyword "in"
  let iter ← s.expressions.starExpressions
  let body ← s.suite
  let orElse ← s.suiteBehind "else"
  pure (.loop (← placeFrom start) async target iter body orElse)

/-- One context with its target. -/
def withItem : Reader Node := do
  let context ← s.expressions.expression
  if ← acceptKeyword "as" then
    let n ← if ← atMark "*" then starredOf s.expressions.bitwise else s.expressions.bitwise
    let target ← required (asStarTarget? n)
    pure (.withItem context (some target))
  else pure (.withItem context none)

/-- The contexts, in brackets that belong to the statement if they can be. -/
def withItems : Reader (List Node) := do
  let bracketed : Reader (List Node) := do
    mark "("
    let first ← s.withItem
    let (_, rest) ← commaList s.fuel (atMark ")") s.withItem
    mark ")"
    if ← atMark ":" then pure (first :: rest) else failure
  bracketed <|> separated s.fuel s.withItem

/-- A statement within contexts. -/
def withStatement (start : Token) (async : Bool) : Reader Node := do
  let items ← s.withItems
  let body ← s.suite
  pure (.within (← placeFrom start) async items body)

/-- A handler for failures; with a star it handles groups of them. -/
def handler (group : Bool) : Reader Node := do
  let start ← peek
  keyword "except"
  if group then
    mark "*"
    let type ← s.expressions.expression
    named start (some type)
  else if ← atMark ":" then named start none
  else
    let type ← s.expressions.expression
    named start (some type)
where
  /-- The name of what is handled, and the block. -/
  named (start : Token) (type : Option Node) : Reader Node := do
    let name ← if type.isSome then behind? (.keyword "as") word else pure none
    let body ← s.suite
    pure (.handler (← placeFrom start) type name body)

/-- A block with handlers or with a block that always runs. -/
def tryStatement (start : Token) : Reader Node := do
  let body ← s.suite
  let group ← if ← atKeyword "except" then isSecond (.mark "*") else pure false
  let handlers ← while? s.fuel (atKeyword "except") (s.handler group)
  if handlers.isEmpty then
    keyword "finally"
    let final ← s.suite
    pure (.guarded (← placeFrom start) false body [] [] final)
  else
    let orElse ← s.suiteBehind "else"
    let final ← s.suiteBehind "finally"
    pure (.guarded (← placeFrom start) group body handlers orElse final)

/-- A function. -/
def functionStatement (start : Token) (async : Bool) (decorators : List Node) : Reader Node := do
  let name ← word
  mark "("
  let parameters ← s.expressions.parameterList true ")" s.fuel {}
  mark ")"
  let returns ← behind? (.mark "->") s.expressions.expression
  let body ← s.suite
  pure (.functionDef (← placeFrom start) async name parameters.node body decorators returns)

/-- A class. -/
def classStatement (start : Token) (decorators : List Node) : Reader Node := do
  let name ← word
  let (bases, keywords) ← if ← atMark "(" then s.expressions.arguments false
    else pure ([], [])
  let body ← s.suite
  pure (.classDef (← placeFrom start) name bases keywords body decorators)

/-- A function or class behind its decorators, or a compound statement that is asynchronous. -/
def definition (decorators : List Node) : Reader Node := do
  let start ← peek
  if ← acceptKeyword "class" then s.classStatement start decorators
  else if ← acceptKeyword "def" then s.functionStatement start false decorators
  else
    keyword "async"
    keyword "def"
    s.functionStatement start true decorators

/-- A decorator on its line. -/
def decorator : Reader Node := do
  let n ← s.expressions.namedExpression
  expect .newline
  pure n

/-- An asynchronous statement. -/
def asyncStatement : Reader Node := do
  let start ← peek
  keyword "async"
  if ← acceptKeyword "def" then s.functionStatement start true []
  else if ← acceptKeyword "for" then s.forStatement start true
  else
    keyword "with"
    s.withStatement start true

/-- One case. -/
def caseBlock : Reader Node := do
  expect (.word "case")
  let pattern ← s.patterns.casePattern
  let guard ← behind? (.keyword "if") s.expressions.namedExpression
  let body ← s.suite
  pure (.matchCase pattern guard body)

/-- A statement that takes a subject apart by cases. -/
def matchStatement : Reader Node := do
  let start ← peek
  expect (.word "match")
  let subject ← s.expressions.tupleOr s.expressions.starNamed
  match subject with
  | .plain _ .starred _ => failure
  | _ =>
    mark ":"
    expect .newline
    expect .indent
    let first ← s.caseBlock
    let rest ← while? s.fuel (isNext (.word "case")) s.caseBlock
    expect .dedent
    pure (.plain (← placeFrom start) .matching (subject :: first :: rest))

/-- A statement, or the simple statements of a line. -/
def statement : Reader (List Node) := do
  let start ← peek
  match start.lexeme with
  | .keyword "if" =>
    let _ ← advance
    one (s.branchFrom start s.fuel)
  | .keyword "while" =>
    let _ ← advance
    one (s.whileStatement start)
  | .keyword "for" =>
    let _ ← advance
    one (s.forStatement start false)
  | .keyword "with" =>
    let _ ← advance
    one (s.withStatement start false)
  | .keyword "try" =>
    let _ ← advance
    one (s.tryStatement start)
  | .keyword "def" => one (s.definition [])
  | .keyword "class" => one (s.definition [])
  | .keyword "async" => one s.asyncStatement
  | .mark "@" => one (do
      let decorators ← while? s.fuel (acceptMark "@") s.decorator
      s.definition decorators)
  | .word "match" => one s.matchStatement <|> s.simpleStatements s.fuel
  | _ => s.simpleStatements s.fuel
where
  /-- A statement alone. -/
  one (r : Reader Node) : Reader (List Node) := do
    let n ← r
    pure [n]

/-- Statements as long as the next token is none of these. -/
def statementsUntil (ends : Lexeme) : Nat → Reader (List Node)
  | 0 => failure
  | fuel + 1 => do
    if ← isNext ends then pure []
    else
      let ns ← s.statement
      let rest ← statementsUntil ends fuel
      pure (ns ++ rest)

/-- A block: indented statements, or simple statements on the same line. -/
def blockOf : Reader (List Node) := do
  if ← accept .newline then
    expect .indent
    let first ← s.statement
    let rest ← s.statementsUntil .dedent s.fuel
    expect .dedent
    pure (first ++ rest)
  else s.simpleStatements s.fuel

/-- The readers of statements whose blocks are nested less often than `n`. -/
def nested (e : Expressions) (p : Patterns) : Nat → Statements
  | 0 => ⟨0, e, p, failure⟩
  | n + 1 => ⟨n + 1, e, p, fun c => (nested e p n).blockOf c⟩

end Statements

/-- A whole module: statements up to the end of the text. -/
def moduleBody (fuel : Nat) : Reader (List Node) := do
  let e := Expressions.nested fuel
  let body ← (Statements.nested e (Patterns.nested e fuel) fuel).statementsUntil .finish fuel
  Reader.expect .finish
  pure body

/-- A single expression: one, or a tuple without brackets, up to the end of the text. -/
def lineExpression (fuel : Nat) : Reader Node := do
  let e := Expressions.nested fuel
  let n ← e.tupleOr e.expression
  let _ ← Reader.while? fuel (Reader.accept .newline) (pure ())
  Reader.expect .finish
  pure n

end Concordance.Syntax
