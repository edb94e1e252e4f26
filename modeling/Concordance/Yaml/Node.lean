import Concordance.Table
import Concordance.Yaml.Schema
import Concordance.Yaml.Tokens

/-!
# YAML nodes

The tree that a text writes: scalars, sequences and mappings with the names of their types. What an
alias stands for is put in its place, unless the alias stands within it.

## Main definitions

* `Node`: the trees
* `Node.ofText`: the tree of a text, which holds at most one document
-/

namespace Concordance.Yaml

/-- A tree. Nodes have the full name of a type. -/
inductive Node where
  | scalar (tag text : String)
  | sequence (tag : String) (items : List Node)
  | mapping (tag : String) (pairs : List (Node × Node))
  /-- A collection that stands around this place. -/
  | enclosing
deriving Inhabited

namespace Node

/-- Where reading a tree stands: the tokens that are left, why they end, the nodes that have names,
which are none yet within them, and the handles that start the names of types. -/
structure Reading where
  tokens : List Token
  ending : Fault
  named : Table String Node := []
  handles : Table String String := []

/-- Reading a part of a tree. -/
abbrev Read (α : Type) := StateT Reading (Except Fault) α

/-- The handles that need no directive. -/
def usualHandles : Table String String := [("!", "!"), ("!!", tagStart)]

/-- The tree of something that is left out. -/
def nothing : Node := .scalar (plainTag "") ""

/-- The next token. -/
def peek : Read Token := do
  let r ← get
  match r.tokens with
  | t :: _ => pure t
  | [] => throw r.ending

/-- Go over a token. -/
def drop : Read Unit := modify fun r => { r with tokens := r.tokens.drop 1 }

/-- Go over the next token, which has to be a given one. -/
def expect (t : Token) : Read Unit := do
  if (← peek) = t then drop else throw .malformed

/-- Go over the next token if it is a given one, and tell whether it was. -/
def dropIf (t : Token) : Read Bool := do
  if (← peek) = t then drop; pure true else pure false

/-! ### Properties -/

/-- The name and the type that are given to a node. -/
structure Properties where
  anchor : Option String := none
  tag : Option TagName := none

/-- Read the properties of a node, in either order. -/
def readProperties : Read Properties := do
  match ← peek with
  | .anchor a =>
    drop
    match ← peek with
    | .tag t => drop; pure ⟨some a, some t⟩
    | _ => pure ⟨some a, none⟩
  | .tag t =>
    drop
    match ← peek with
    | .anchor a => drop; pure ⟨some a, some t⟩
    | _ => pure ⟨none, some t⟩
  | _ => pure {}

/-- The full name of a type. -/
def fullTag (t : TagName) : Read String := do
  match t.handle with
  | none => pure t.suffix
  | some h =>
    match (← get).handles.find? h with
    | some start => pure (start ++ t.suffix)
    | none => throw .malformed

/-- Give a name to a node that is being read; names are given once. -/
def nameNode (anchor : Option String) : Read Unit := do
  match anchor with
  | none => pure ()
  | some a =>
    let r ← get
    if r.named.has a then throw .malformed
    else set { r with named := r.named.insert a .enclosing }

/-- Keep a node that was read under its name. -/
def keepNode (anchor : Option String) (n : Node) : Read Node := do
  match anchor with
  | none => pure n
  | some a =>
    modify fun r => { r with named := r.named.insert a n }
    pure n

/-- The full name of the type of a collection; a lone exclamation mark leaves it open. -/
def collectionTag (tag : Option String) (usual : String) : String :=
  match tag with
  | some t => if t = "!" then tagStart ++ usual else t
  | none => tagStart ++ usual

/-- The full name of the type of a scalar. A lone exclamation mark asks for what a plain scalar
would be. -/
def scalarTag (tag : Option String) (plain : Bool) (text : String) : String :=
  match tag with
  | some t => if t = "!" then plainTag text else t
  | none => if plain then plainTag text else tagStart ++ "str"

/-! ### Trees -/

/-- Trees that are nested more deeply than this are not read. -/
def mostNested : Nat := 480

/-- Whether a token is one of some. -/
def isOneOf (ts : List Token) (t : Token) : Bool := ts.contains t

mutual

/-- Read a tree at a depth. `block` tells whether it may be a block, and `indentless` whether the
entries of a sequence may follow without one. -/
def readNode : (fuel : Nat) → (depth : Nat) → (block indentless : Bool) → Read Node
  | 0, _, _, _ => throw .malformed
  | fuel + 1, depth, block, indentless => do
    if mostNested < depth then throw (.failed .depth)
    match ← peek with
    | .reference a =>
      drop
      match (← get).named.find? a with
      | some n => pure n
      | none => throw .malformed
    | _ =>
      let p ← readProperties
      let tag ←
        match p.tag with
        | some t => some <$> fullTag t
        | none => pure none
      nameNode p.anchor
      keepNode p.anchor (← readContent fuel (depth + 1) block indentless p.anchor.isSome tag)

/-- Read what stands behind the properties of a tree. -/
def readContent : (fuel : Nat) → (depth : Nat) → (block indentless named : Bool) →
    (tag : Option String) → Read Node
  | 0, _, _, _, _, _ => throw .malformed
  | fuel + 1, depth, block, indentless, named, tag => do
    let sequence := fun items => Node.sequence (collectionTag tag "seq") items
    let mapping := fun pairs => Node.mapping (collectionTag tag "map") pairs
    match ← peek with
    | .scalar text plain => drop; pure (.scalar (scalarTag tag plain text) text)
    | .flowSequenceStart => drop; sequence <$> readFlowItems fuel depth true []
    | .flowMappingStart => drop; mapping <$> readFlowPairs fuel depth true []
    | t =>
      if indentless && t = .blockEntry then sequence <$> readIndentless fuel depth []
      else if block && t = .blockSequenceStart then do drop; sequence <$> readItems fuel depth []
      else if block && t = .blockMappingStart then do drop; mapping <$> readPairs fuel depth []
      else if named || tag.isSome then pure (.scalar (scalarTag tag true "") "")
      else throw .malformed

/-- Read a tree of a kind unless one of some tokens stands there. -/
def readUnless : (fuel : Nat) → (depth : Nat) → (block indentless : Bool) → List Token → Read Node
  | 0, _, _, _, _ => throw .malformed
  | fuel + 1, depth, block, indentless, ends => do
    if isOneOf ends (← peek) then pure nothing else readNode fuel depth block indentless

/-- Read what follows the sign of a value, if it stands there. -/
def readValue : (fuel : Nat) → (depth : Nat) → (block : Bool) → List Token → Read Node
  | 0, _, _, _ => throw .malformed
  | fuel + 1, depth, block, ends => do
    if ← dropIf .value then readUnless fuel depth block block ends else pure nothing

/-- Read the entries of a block up to its end; `acc` holds those read, last first. -/
def readItems : (fuel : Nat) → (depth : Nat) → (acc : List Node) → Read (List Node)
  | 0, _, _ => throw .malformed
  | fuel + 1, depth, acc => do
    if ← dropIf .blockEntry then
      let n ← readUnless fuel depth true false [.blockEntry, .blockEnd]
      readItems fuel depth (n :: acc)
    else do
      expect .blockEnd
      pure acc.reverse

/-- Read entries without a block around them. -/
def readIndentless : (fuel : Nat) → (depth : Nat) → (acc : List Node) → Read (List Node)
  | 0, _, _ => throw .malformed
  | fuel + 1, depth, acc => do
    if ← dropIf .blockEntry then
      let n ← readUnless fuel depth true false [.blockEntry, .key, .value, .blockEnd]
      readIndentless fuel depth (n :: acc)
    else pure acc.reverse

/-- Read the pairs of a block up to its end. -/
def readPairs : (fuel : Nat) → (depth : Nat) → (acc : List (Node × Node)) →
    Read (List (Node × Node))
  | 0, _, _ => throw .malformed
  | fuel + 1, depth, acc => do
    let ends := [Token.key, .value, .blockEnd]
    match ← peek with
    | .key =>
      drop
      let k ← readUnless fuel depth true true ends
      let v ← readValue fuel depth true ends
      readPairs fuel depth ((k, v) :: acc)
    | .value => throw .malformed
    | _ =>
      expect .blockEnd
      pure acc.reverse

/-- Read the items of a sequence in brackets up to its end. A key among them is a mapping of its
own. -/
def readFlowItems : (fuel : Nat) → (depth : Nat) → (first : Bool) → (acc : List Node) →
    Read (List Node)
  | 0, _, _, _ => throw .malformed
  | fuel + 1, depth, first, acc => do
    if ← dropIf .flowSequenceEnd then return acc.reverse
    if !first then expect .flowEntry
    match ← peek with
    | .key =>
      drop
      let k ← readUnless fuel (depth + 1) false false [.value, .flowEntry, .flowSequenceEnd]
      let v ← readValue fuel (depth + 1) false [.flowEntry, .flowSequenceEnd]
      readFlowItems fuel depth false (.mapping (collectionTag none "map") [(k, v)] :: acc)
    | .flowSequenceEnd => drop; return acc.reverse
    | _ =>
      let n ← readNode fuel depth false false
      readFlowItems fuel depth false (n :: acc)

/-- Read the pairs of a mapping in brackets up to its end. -/
def readFlowPairs : (fuel : Nat) → (depth : Nat) → (first : Bool) → (acc : List (Node × Node)) →
    Read (List (Node × Node))
  | 0, _, _, _ => throw .malformed
  | fuel + 1, depth, first, acc => do
    if ← dropIf .flowMappingEnd then return acc.reverse
    if !first then expect .flowEntry
    match ← peek with
    | .key =>
      drop
      let k ← readUnless fuel depth false false [.value, .flowEntry, .flowMappingEnd]
      let v ← readValue fuel depth false [.flowEntry, .flowMappingEnd]
      readFlowPairs fuel depth false ((k, v) :: acc)
    | .flowMappingEnd => drop; return acc.reverse
    | _ =>
      let k ← readNode fuel depth false false
      readFlowPairs fuel depth false ((k, nothing) :: acc)

end

/-! ### Documents -/

/-- Directives in front of a document. -/
structure Directives where
  hasVersion : Bool := false
  handles : Table String String := []

/-- Read the directives in front of a document. Each may stand there once. -/
def readDirectives : (fuel : Nat) → Directives → Read Directives
  | 0, _ => throw .malformed
  | fuel + 1, d => do
    match ← peek with
    | .versionDirective major _ =>
      drop
      if d.hasVersion || major ≠ 1 then throw .malformed
      readDirectives fuel { d with hasVersion := true }
    | .tagDirective handle start =>
      drop
      if d.handles.has handle then throw .malformed
      readDirectives fuel { d with handles := d.handles ++ [(handle, start)] }
    | .otherDirective => drop; readDirectives fuel d
    | _ => pure d

/-- Whether a token starts a document by its sign or a directive in front of it. -/
def startsDocument : Token → Bool
  | .versionDirective .. => true
  | .tagDirective .. => true
  | .otherDirective => true
  | .documentStart => true
  | _ => false

/-- Whether a document ends in front of a token. -/
def endsDocument (t : Token) : Bool := startsDocument t || t = .documentEnd || t = .streamEnd

/-- Read the tree of a document, unless the text has none. -/
def readDocument (fuel : Nat) : Read (Option Node) := do
  let t ← peek
  if t = .streamEnd then pure none
  else if startsDocument t then do
    let d ← readDirectives fuel {}
    modify fun r => { r with handles := d.handles ++ usualHandles }
    expect .documentStart
    if endsDocument (← peek) then pure (some nothing) else some <$> readNode fuel 0 true false
  else do
    modify fun r => { r with handles := usualHandles }
    some <$> readNode fuel 0 true false

/-- Go over the ends of documents. -/
def dropEnds : (fuel : Nat) → Read Unit
  | 0 => throw .malformed
  | fuel + 1 => do
    if ← dropIf .documentEnd then dropEnds fuel

/-- Read the only document of a text. -/
def readOnly (fuel : Nat) : Read (Option Node) := do
  let n ← readDocument fuel
  dropEnds fuel
  if (← peek) = .streamEnd then pure n else throw .malformed

/-- The tree of a text, if it holds a document. -/
def ofText (cs : List Char) : Except Fault (Option Node) :=
  let (tokens, fault) := tokensOf cs
  let start : Reading := { tokens, ending := fault.getD .malformed }
  ((readOnly (4 * tokens.length + 8)).run start).map Prod.fst

end Node

end Concordance.Yaml
