import Concordance.Toml.Scalar

/-!
# TOML documents

Lines that give values to keys, and headers that say below which table the keys of the following
lines stand. A key may be given a value once, and a table may be opened by a header once. What an
inline value or an array holds is complete and cannot be added to, and neither can a table that
dotted keys have made in another section.

Which keys those are is kept beside the data: `explicit` holds the keys of tables that no header or
dotted key may open again, `complete` those that nothing may be added to or below, and `pending`
those that become explicit when the section ends.

## Main definitions

* `Toml.readValue`: a value
* `Toml.Document`: the data with what is known about its keys
* `Toml.parse`: the table that a text is
-/

namespace Concordance.Toml

/-- A dotted key. -/
abbrev Key := List String

/-- The fields of a table. -/
abbrev Fields := Table String Value

/-! ### Keys and comments -/

/-- One part of a key. -/
def readKeyPart (cs : List Char) : Except Fault (String × List Char) :=
  match cs with
  | [] => .error .malformed
  | c :: _ =>
    if isBare c then .ok (String.ofList (cs.takeWhile isBare), cs.dropWhile isBare)
    else (readLineString cs).map fun r => (String.ofList r.1, r.2)

/-- The rest of a dotted key, with blanks around its dots. -/
def readKeyRest : (fuel : Nat) → Key → List Char → Except Fault (Key × List Char)
  | 0, _, _ => .error .malformed
  | fuel + 1, key, cs =>
    match cs.dropWhile isSpace with
    | '.' :: rest => do
      let (part, rest) ← readKeyPart (rest.dropWhile isSpace)
      readKeyRest fuel (key ++ [part]) rest
    | rest => .ok (key, rest)

/-- A dotted key. -/
def readKey (cs : List Char) : Except Fault (Key × List Char) := do
  let (part, rest) ← readKeyPart cs
  readKeyRest (rest.length + 1) [part] rest

/-- What follows a comment, if there is one. -/
def skipComment (cs : List Char) : Except Fault (List Char) :=
  match cs with
  | '#' :: rest =>
    if (rest.takeWhile (· ≠ '\n')).any (isForbidden false) then .error .malformed
    else .ok (rest.dropWhile (· ≠ '\n'))
  | cs => .ok cs

/-- What follows blanks, ends of lines and comments. -/
def skipGaps : (fuel : Nat) → List Char → Except Fault (List Char)
  | 0, cs => .ok cs
  | fuel + 1, cs =>
    match cs.dropWhile isGap with
    | '#' :: rest => do skipGaps fuel (← skipComment ('#' :: rest))
    | rest => .ok rest

/-! ### Tables within tables -/

/-- Whether a key lies at or below one of some keys. -/
def isWithin (keys : List Key) (key : Key) : Bool := keys.any fun k => k.isPrefixOf key

mutual

/-- Change the table at a key, which is made if it is missing. If `lists`, the key of an array leads
to its last table. A key of anything else leads nowhere. -/
def changeAt (lists : Bool) (change : Fields → Option Fields) : Key → Fields → Option Fields
  | [], t => change t
  | k :: key, t =>
    match t.find? k with
    | none => (changeAt lists change key []).map fun u => t.insert k (.table u)
    | some v => (changeIn lists change key v).map fun u => t.insert k u

/-- Change the table at a key below a value. -/
def changeIn (lists : Bool) (change : Fields → Option Fields) (key : Key) (v : Value) :
    Option Value :=
  match v with
  | .table u => (changeAt lists change key u).map .table
  | .array items =>
    match lists, items.getLast? with
    | true, some (.table u) =>
      (changeAt lists change key u).map fun u => .array (items.dropLast ++ [.table u])
    | _, _ => none
  | _ => none

end

/-- Give a key of a table a value that it must not have. -/
def putNew (key : String) (v : Value) (t : Fields) : Option Fields :=
  if t.has key then none else some (t.insert key v)

/-- Add an empty table to the array at a key of a table, which is made if it is missing. -/
def appendTable (key : String) (t : Fields) : Option Fields :=
  match t.find? key with
  | none => some (t.insert key (.array [.table []]))
  | some (.array items) => some (t.insert key (.array (items ++ [.table []])))
  | some _ => none

/-- A result that must be there. -/
def orMalformed {α : Type} : Option α → Except Fault α
  | some a => .ok a
  | none => .error .malformed

/-! ### Values -/

/-- Whether a value is complete where it is written. -/
def isCompound : Value → Bool
  | .array _ => true
  | .table _ => true
  | _ => false

/-- A value that is neither an array nor a table. -/
def readScalar (cs : List Char) : Except Fault (Value × List Char) :=
  match cs with
  | '"' :: _ => (readString cs).map fun r => (.string (String.ofList r.1), r.2)
  | '\'' :: _ => (readString cs).map fun r => (.string (String.ofList r.1), r.2)
  | 't' :: 'r' :: 'u' :: 'e' :: rest => .ok (.bool true, rest)
  | 'f' :: 'a' :: 'l' :: 's' :: 'e' :: rest => .ok (.bool false, rest)
  | cs => ((readMoment? cs).or (readNumber? cs)).getD (.error .malformed)

mutual

/-- A value. -/
def readValue : (fuel : Nat) → List Char → Except Fault (Value × List Char)
  | 0, _ => .error .malformed
  | fuel + 1, cs =>
    match cs with
    | '[' :: rest => do
      match ← skipGaps rest.length rest with
      | ']' :: rest => .ok (.array [], rest)
      | rest => readItems fuel [] rest
    | '\x7b' :: rest =>
      match rest.dropWhile isSpace with
      | '\x7d' :: rest => .ok (.table [], rest)
      | rest => readFields fuel [] [] rest
    | cs => readScalar cs

/-- The items of an array up to its end; `acc` holds those read, last first. -/
def readItems : (fuel : Nat) → List Value → List Char → Except Fault (Value × List Char)
  | 0, _, _ => .error .malformed
  | fuel + 1, acc, cs => do
    let (v, rest) ← readValue fuel cs
    match ← skipGaps rest.length rest with
    | ']' :: rest => .ok (.array (v :: acc).reverse, rest)
    | ',' :: rest =>
      match ← skipGaps rest.length rest with
      | ']' :: rest => .ok (.array (v :: acc).reverse, rest)
      | rest => readItems fuel (v :: acc) rest
    | _ => .error .malformed

/-- The fields of an inline table up to its end, with the keys in it that are complete. -/
def readFields : (fuel : Nat) → List Key → Fields → List Char → Except Fault (Value × List Char)
  | 0, _, _, _ => .error .malformed
  | fuel + 1, complete, t, cs => do
    let (key, rest) ← readKey cs
    match rest with
    | '=' :: rest =>
      let (v, rest) ← readValue fuel (rest.dropWhile isSpace)
      if isWithin complete key then .error .malformed
      else
        let t ← orMalformed (changeAt false (putNew (key.getLastD "") v) key.dropLast t)
        match rest.dropWhile isSpace with
        | '\x7d' :: rest => .ok (.table t, rest)
        | ',' :: rest =>
          readFields fuel (if isCompound v then key :: complete else complete) t
            (rest.dropWhile isSpace)
        | _ => .error .malformed
    | _ => .error .malformed

end

/-! ### Documents -/

/-- A document as far as it is read: its data, the key of the last header, and what is known about
keys. -/
structure Document where
  data : Fields := []
  header : Key := []
  explicit : List Key := []
  complete : List Key := []
  pending : List Key := []

namespace Document

/-- The keys on the way to a key, without it, longest last. -/
def wayTo (header key : Key) : List Key :=
  (List.range (key.length - 1)).map fun i => header ++ key.take (i + 1)

/-- Give a key below the header a value. -/
def put (d : Document) (key : Key) (v : Value) : Except Fault Document := do
  let way := wayTo d.header key
  if way.any (d.explicit.contains ·) then throw .malformed
  let place := d.header ++ key.dropLast
  if isWithin d.complete place then throw .malformed
  let data ← orMalformed (changeAt true (putNew (key.getLastD "") v) place d.data)
  pure { d with
    data, pending := d.pending ++ way
    complete := if isCompound v then (d.header ++ key) :: d.complete else d.complete }

/-- End a section: dotted keys have opened their tables for good. -/
def endSection (d : Document) : Document :=
  { d with explicit := d.pending ++ d.explicit, pending := [] }

/-- Open a table by a header. -/
def openTable (d : Document) (key : Key) : Except Fault Document := do
  if d.explicit.contains key || isWithin d.complete key then throw .malformed
  let data ← orMalformed (changeAt true some key d.data)
  pure { d with data, header := key, explicit := key :: d.explicit }

/-- Open the next table of an array by a header. What was known about keys below it was about the
table before. -/
def openItem (d : Document) (key : Key) : Except Fault Document := do
  if isWithin d.complete key then throw .malformed
  let data ← orMalformed (changeAt true (appendTable (key.getLastD "")) key.dropLast d.data)
  let stays := fun k : Key => !key.isPrefixOf k
  pure { d with
    data, header := key
    explicit := key :: d.explicit.filter stays, complete := d.complete.filter stays }

/-- What a statement does, and what follows it. -/
def readStatement (d : Document) (cs : List Char) : Except Fault (Document × List Char) :=
  match cs with
  | '[' :: '[' :: rest => do
    let (key, rest) ← readKey (rest.dropWhile isSpace)
    let d ← d.endSection.openItem key
    match rest with
    | ']' :: ']' :: rest => pure (d, rest)
    | _ => throw .malformed
  | '[' :: rest => do
    let (key, rest) ← readKey (rest.dropWhile isSpace)
    let d ← d.endSection.openTable key
    match rest with
    | ']' :: rest => pure (d, rest)
    | _ => throw .malformed
  | '#' :: _ => pure (d, cs)
  | '\n' :: _ => pure (d, cs)
  | [] => pure (d, cs)
  | cs => do
    let (key, rest) ← readKey cs
    match rest with
    | '=' :: rest =>
      let (v, rest) ← readValue (2 * rest.length + 2) (rest.dropWhile isSpace)
      pure (← d.put key v, rest)
    | _ => throw .malformed

/-- Read the lines of a document. -/
def readLines : (fuel : Nat) → Document → List Char → Except Fault Document
  | 0, d, _ => .ok d
  | fuel + 1, d, cs => do
    let (d, rest) ← d.readStatement (cs.dropWhile isSpace)
    match ← skipComment (rest.dropWhile isSpace) with
    | [] => pure d
    | '\n' :: rest => readLines fuel d rest
    | _ => throw .malformed

end Document

/-- Make all ends of lines the same. -/
def unifyLines : List Char → List Char
  | '\r' :: '\n' :: rest => '\n' :: unifyLines rest
  | c :: rest => c :: unifyLines rest
  | [] => []

/-- The table that a text is. -/
def parse (cs : List Char) : Except Fault Fields :=
  (Document.readLines (cs.length + 1) {} (unifyLines cs)).map Document.data

end Concordance.Toml
