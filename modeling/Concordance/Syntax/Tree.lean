/-!
# Syntax trees

The trees of the analysed language, version 3.11 of its grammar. There is one type of nodes:
expressions, statements, patterns and the parts between them are walked alike by everything that
reads a tree. A node that has a rule of its own somewhere has a constructor of its own; all others
are `plain`, with their form and their parts in source order.

## Main definitions

* `Place`: where a node stands
* `Node`: the trees
* `Node.parts`: what a node directly consists of, in the order of its fields
* `Node.height`, `Node.breadthFirst`: nesting, and the nodes of a tree level by level
-/

namespace Concordance.Syntax

/-- Where a node stands: its first line and column and its last line. Lines count from zero,
columns count the octets of the line before the node. -/
structure Place where
  line : Nat
  column : Nat
  lastLine : Nat
deriving DecidableEq, Repr, Inhabited

/-- What a name, attribute or item is used for. -/
inductive Use where
  | load
  | store
  | delete
deriving DecidableEq, Repr

/-- The values that literals stand for. A decimal is its digits and a power of ten. A text with halves
of surrogate pairs is `halved`; it is given by code points. -/
inductive Literal where
  | none
  | true
  | false
  | ellipsis
  | int (n : Nat)
  | decimal (digits : Nat) (exponent : Int)
  | imaginary (digits : Nat) (exponent : Int)
  | string (s : String)
  | halved (points : List Nat)
  | bytes (octets : List UInt8)
deriving DecidableEq, Repr

/-- The operators with two operands. -/
inductive Operator where
  | add | sub | mult | matMult | div | mod | pow | leftShift | rightShift | bitOr | bitXor
  | bitAnd | floorDiv
deriving DecidableEq, Repr

/-- The comprehensions. -/
inductive Comprehension where
  | list
  | set
  | generator
  | dict
deriving DecidableEq, Repr

/-- The forms of nodes without a rule of their own. -/
inductive Form where
  -- expressions
  | boolOp | unaryOp | ifExp | set | list | starred | yielding | yieldingFrom | compare
  | formattedValue | joinedString | slice
  -- patterns
  | matchValue | matchSingleton | matchSequence | matchClass | matchOr
  -- statements
  | returning | deleting | whileLoop | raising | asserting | expression | passing | breaking
  | continuing | matching
deriving DecidableEq, Repr

/-- A name in an import, with the name it is given. -/
structure Alias where
  name : String
  asName : Option String
deriving DecidableEq, Repr

/-- A node of a syntax tree. -/
inductive Node where
  -- expressions
  | name (place : Place) (id : String) (use : Use)
  | constant (place : Place) (value : Literal)
  | member (place : Place) (value : Node) (attr : String) (use : Use)
  | subscript (place : Place) (value slice : Node) (use : Use)
  | call (place : Place) (func : Node) (args keywords : List Node)
  | binary (place : Place) (op : Operator) (left right : Node)
  | tuple (place : Place) (items : List Node) (use : Use)
  | dict (place : Place) (keys values : List Node)
  | await (place : Place) (value : Node)
  | named (place : Place) (target value : Node)
  | lambda (place : Place) (parameters body : Node)
  | comprehension (place : Place) (form : Comprehension) (elements generators : List Node)
  -- parts of expressions and of definitions
  | keyword (place : Place) (name : Option String) (value : Node)
  | generator (target iter : Node) (conditions : List Node)
  | parameters (positionalOnly positional : List Node) (rest : Option Node)
      (keywordOnly keywordDefaults : List Node) (keywordRest : Option Node)
      (defaults : List Node)
  | parameter (place : Place) (name : String) (hint : Option Node)
  -- patterns
  | matchAs (place : Place) (pattern : Option Node) (name : Option String)
  | matchStar (place : Place) (name : Option String)
  | matchMapping (place : Place) (keys patterns : List Node) (rest : Option String)
  -- statements
  | classDef (place : Place) (name : String) (bases keywords body decorators : List Node)
  | functionDef (place : Place) (async : Bool) (name : String) (parameters : Node)
      (body decorators : List Node) (returns : Option Node)
  | assign (place : Place) (targets : List Node) (value : Node)
  | annAssign (place : Place) (target hint : Node) (value : Option Node)
  | augAssign (place : Place) (target : Node) (op : Operator) (value : Node)
  | importModules (place : Place) (names : List Alias)
  | importFrom (place : Place) (source : Option String) (names : List Alias) (level : Nat)
  | outerNames (place : Place) (global : Bool) (names : List String)
  | branch (place : Place) (test : Node) (body orElse : List Node)
  | loop (place : Place) (async : Bool) (target iter : Node) (body orElse : List Node)
  | guarded (place : Place) (group : Bool) (body handlers orElse final : List Node)
  | within (place : Place) (async : Bool) (items body : List Node)
  -- parts of statements
  | handler (place : Place) (type : Option Node) (name : Option String) (body : List Node)
  | withItem (context : Node) (target : Option Node)
  | matchCase (pattern : Node) (guard : Option Node) (body : List Node)
  -- everything else
  | plain (place : Place) (form : Form) (parts : List Node)

instance : Inhabited Node := ⟨.constant default .none⟩

namespace Node

/-- Where a node stands. The parts that only hold other nodes together stand nowhere. -/
def place : Node → Place
  | name p .. => p
  | constant p .. => p
  | member p .. => p
  | subscript p .. => p
  | call p .. => p
  | binary p .. => p
  | tuple p .. => p
  | dict p .. => p
  | await p .. => p
  | named p .. => p
  | lambda p .. => p
  | comprehension p .. => p
  | keyword p .. => p
  | generator .. => default
  | parameters .. => default
  | parameter p .. => p
  | matchAs p .. => p
  | matchStar p .. => p
  | matchMapping p .. => p
  | classDef p .. => p
  | functionDef p .. => p
  | assign p .. => p
  | annAssign p .. => p
  | augAssign p .. => p
  | importModules p .. => p
  | importFrom p .. => p
  | outerNames p .. => p
  | branch p .. => p
  | loop p .. => p
  | guarded p .. => p
  | within p .. => p
  | handler p .. => p
  | withItem .. => default
  | matchCase .. => default
  | plain p .. => p

/-- What a node directly consists of, in the order of its fields. -/
def parts : Node → List Node
  | name .. => []
  | constant .. => []
  | member _ v _ _ => [v]
  | subscript _ v s _ => [v, s]
  | call _ f args keywords => f :: (args ++ keywords)
  | binary _ _ l r => [l, r]
  | tuple _ items _ => items
  | dict _ keys values => keys ++ values
  | await _ v => [v]
  | named _ t v => [t, v]
  | lambda _ ps b => [ps, b]
  | comprehension _ _ elements generators => elements ++ generators
  | keyword _ _ v => [v]
  | generator t i conditions => t :: i :: conditions
  | parameters po p rest ko kd keywordRest d =>
    po ++ p ++ rest.toList ++ ko ++ kd ++ keywordRest.toList ++ d
  | parameter _ _ a => a.toList
  | matchAs _ p _ => p.toList
  | matchStar .. => []
  | matchMapping _ keys patterns _ => keys ++ patterns
  | classDef _ _ bases keywords body decorators => bases ++ keywords ++ body ++ decorators
  | functionDef _ _ _ ps body decorators returns => ps :: (body ++ decorators ++ returns.toList)
  | assign _ targets v => targets ++ [v]
  | annAssign _ t a v => t :: a :: v.toList
  | augAssign _ t _ v => [t, v]
  | importModules .. => []
  | importFrom .. => []
  | outerNames .. => []
  | branch _ t body orElse => t :: (body ++ orElse)
  | loop _ _ t i body orElse => t :: i :: (body ++ orElse)
  | guarded _ _ body handlers orElse final => body ++ handlers ++ orElse ++ final
  | within _ _ items body => items ++ body
  | handler _ t _ body => t.toList ++ body
  | withItem c t => c :: t.toList
  | matchCase p g body => p :: (g.toList ++ body)
  | plain _ _ ps => ps

/-! ### Nesting -/

mutual

/-- How deeply the nodes of a tree are nested. -/
def height : Node → Nat
  | name .. => 1
  | constant .. => 1
  | member _ v _ _ => v.height + 1
  | subscript _ v s _ => max v.height s.height + 1
  | call _ f args keywords => max f.height (max (heightAll args) (heightAll keywords)) + 1
  | binary _ _ l r => max l.height r.height + 1
  | tuple _ items _ => heightAll items + 1
  | dict _ keys values => max (heightAll keys) (heightAll values) + 1
  | await _ v => v.height + 1
  | named _ t v => max t.height v.height + 1
  | lambda _ ps b => max ps.height b.height + 1
  | comprehension _ _ elements generators =>
    max (heightAll elements) (heightAll generators) + 1
  | keyword _ _ v => v.height + 1
  | generator t i conditions => max t.height (max i.height (heightAll conditions)) + 1
  | parameters po p rest ko kd keywordRest d =>
    max (heightAll po) (max (heightAll p) (max (heightOption rest) (max (heightAll ko)
      (max (heightAll kd) (max (heightOption keywordRest) (heightAll d)))))) + 1
  | parameter _ _ a => heightOption a + 1
  | matchAs _ p _ => heightOption p + 1
  | matchStar .. => 1
  | matchMapping _ keys patterns _ => max (heightAll keys) (heightAll patterns) + 1
  | classDef _ _ bases keywords body decorators =>
    max (heightAll bases) (max (heightAll keywords) (max (heightAll body)
      (heightAll decorators))) + 1
  | functionDef _ _ _ ps body decorators returns =>
    max ps.height (max (heightAll body) (max (heightAll decorators) (heightOption returns))) + 1
  | assign _ targets v => max (heightAll targets) v.height + 1
  | annAssign _ t a v => max t.height (max a.height (heightOption v)) + 1
  | augAssign _ t _ v => max t.height v.height + 1
  | importModules .. => 1
  | importFrom .. => 1
  | outerNames .. => 1
  | branch _ t body orElse => max t.height (max (heightAll body) (heightAll orElse)) + 1
  | loop _ _ t i body orElse =>
    max t.height (max i.height (max (heightAll body) (heightAll orElse))) + 1
  | guarded _ _ body handlers orElse final =>
    max (heightAll body) (max (heightAll handlers) (max (heightAll orElse)
      (heightAll final))) + 1
  | within _ _ items body => max (heightAll items) (heightAll body) + 1
  | handler _ t _ body => max (heightOption t) (heightAll body) + 1
  | withItem c t => max c.height (heightOption t) + 1
  | matchCase p g body => max p.height (max (heightOption g) (heightAll body)) + 1
  | plain _ _ ps => heightAll ps + 1

/-- How deeply nodes next to each other are nested. -/
def heightAll : List Node → Nat
  | [] => 0
  | n :: rest => max n.height (heightAll rest)

/-- How deeply a part that may be missing is nested. -/
def heightOption : Option Node → Nat
  | none => 0
  | some n => n.height

end

/-! ### Level by level -/

/-- The nodes of the next `fuel` levels, from the level given. -/
def levels : Nat → List Node → List Node
  | 0, _ => []
  | _, [] => []
  | fuel + 1, n :: rest => n :: rest ++ levels fuel ((n :: rest).flatMap parts)

/-- The nodes below and including some nodes, level by level. -/
def breadthFirstAll (nodes : List Node) : List Node := levels (heightAll nodes) nodes

/-- The nodes of a tree, level by level. -/
def breadthFirst (n : Node) : List Node := breadthFirstAll [n]

end Node

end Concordance.Syntax
