import Concordance.Yaml.Node

/-!
# YAML documents

The value of a tree. Collections are opened level by level, and the first fault that is met this way
counts. A mapping may take pairs of others in; its own pairs come behind these.

## Main definitions

* `Node.opened`: what a node brings when it is come to
* `Node.children`: the collections in a collection
* `read`: the value of a text
-/

namespace Concordance.Yaml

namespace Node

/-- The full name of the type of a node. -/
def tag : Node → String
  | scalar t _ => t
  | sequence t _ => t
  | mapping t _ => t
  | enclosing => ""

/-- The type of a node, if there are values for it. -/
def kind? (n : Node) : Option Kind := Kind.ofTag? n.tag

mutual

/-- The text of a scalar. A mapping stands for the entry of the key that marks a value. -/
def text : Node → Except Fault String
  | scalar _ s => .ok s
  | mapping _ pairs => textIn pairs
  | _ => .error .malformed

/-- The text of the entry of the key that marks a value. -/
def textIn : List (Node × Node) → Except Fault String
  | [] => .error .malformed
  | (k, v) :: rest => if k.tag = tagStart ++ "value" then v.text else textIn rest

end

/-! ### Pairs that are taken in -/

/-- A key that marks a value is a text. -/
def plainKey : Node → Node
  | scalar t s => scalar (if t = tagStart ++ "value" then tagStart ++ "str" else t) s
  | n => n

mutual

/-- The pairs that a node brings when it is taken in. -/
def mergedPairs : Node → Except Fault (List (Node × Node))
  | mapping _ pairs => do
    let (taken, own) ← flatten pairs
    pure (taken ++ own)
  | enclosing => .ok []
  | _ => .error .malformed

/-- The pairs that several nodes bring when they are taken in: those of the last one first. -/
def mergedAll : List Node → Except Fault (List (Node × Node))
  | [] => .ok []
  | n :: rest => do
    let pairs ← mergedPairs n
    return (← mergedAll rest) ++ pairs

/-- Pairs that are taken in, and a mapping's own pairs. -/
def flatten : List (Node × Node) → Except Fault (List (Node × Node) × List (Node × Node))
  | [] => .ok ([], [])
  | (k, v) :: rest =>
    if k.tag = tagStart ++ "merge" then do
      let pairs ←
        match v with
        | .sequence _ ns => mergedAll ns
        | v => mergedPairs v
      let (taken, own) ← flatten rest
      pure (pairs ++ taken, own)
    else do
      let (taken, own) ← flatten rest
      pure (taken, (plainKey k, v) :: own)

end

/-- The pairs of a mapping, those that are taken in first. -/
def allPairs (pairs : List (Node × Node)) : Except Fault (List (Node × Node)) :=
  (flatten pairs).map fun (taken, own) => taken ++ own

/-! ### Levels -/

/-- Whether nodes of a type are collections. -/
def isCollection (k : Kind) : Bool :=
  k = .omap || k = .pairs || k = .set || k = .seq || k = .map

/-- What a node brings when it is come to: its value if it is a scalar, and an empty one if it is a
collection. -/
def opened (n : Node) : Except Fault Value :=
  match n with
  | enclosing => .ok (.array [])
  | n =>
    match n.kind? with
    | none => .error .malformed
    | some k =>
      if isCollection k then .ok (.array [])
      else
        match n.text with
        | .ok s => readScalar k s
        | .error e => .error e

/-- The node itself if it is a collection that is still to be opened. -/
def pending (n : Node) : List Node :=
  if (n.kind?).any isCollection then [n] else []

/-- Come to a key and its entry. -/
def openPair (p : Node × Node) : Except Fault (List Node) := do
  let k ← opened p.1
  if !k.isFixed then throw .malformed
  let _ ← opened p.2
  pure (pending p.1 ++ pending p.2)

/-- Come to the only pair of a mapping in a sequence of pairs. -/
def openSingle (n : Node) : Except Fault (List Node) :=
  match n with
  | mapping _ [(k, v)] => do
    let _ ← opened k
    let _ ← opened v
    pure (pending k ++ pending v)
  | _ => .error .malformed

/-- The collections in a collection, in the order in which they are come to. -/
def children (n : Node) : Except Fault (List Node) := do
  match n.kind?, n with
  | some .seq, sequence _ items =>
    return (← items.mapM fun n => do let _ ← opened n; pure (pending n)).flatten
  | some .map, mapping _ pairs => return (← (← allPairs pairs).mapM openPair).flatten
  | some .set, mapping _ pairs => return (← (← allPairs pairs).mapM openPair).flatten
  | some .omap, sequence _ items => return (← items.mapM openSingle).flatten
  | some .pairs, sequence _ items => return (← items.mapM openSingle).flatten
  | _, _ => throw .malformed

/-- Open collections level by level. -/
def checkLevels : (fuel : Nat) → List Node → Except Fault Unit
  | 0, _ => .ok ()
  | fuel + 1, level => do
    if level.isEmpty then pure ()
    else checkLevels fuel (← level.mapM children).flatten

/-! ### Values -/

/-- The value of a node that is nested less deeply than `depth`. -/
def value : (depth : Nat) → Node → Except Fault Value
  | 0, _ => .ok .null
  | depth + 1, n => do
    let pair := fun (p : Node × Node) => do pure (← value depth p.1, ← value depth p.2)
    match n.kind?, n with
    | some .map, mapping _ pairs => return .table (← (← allPairs pairs).mapM pair)
    | some .set, mapping _ pairs => return .set (← (← allPairs pairs).mapM pair)
    | some _, sequence _ items => return .array (← items.mapM (value depth))
    | _, n => opened n

end Node

/-- The value of a text, if it holds a document. -/
def read (cs : List Char) : Except Fault (Option Value) := do
  match ← Node.ofText cs with
  | none => pure none
  | some n =>
    let _ ← n.opened
    Node.checkLevels (Node.mostNested + 1) n.pending
    return some (← n.value (Node.mostNested + 2))

end Concordance.Yaml
