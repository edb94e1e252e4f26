import Concordance.Failure

/-!
# Symbols

A symbol is a declared type, method, property or field. Its identity is its id; everything else
describes it. Only a type has members, only a property has accessors and only a method can be the
accessor of a property, so these stand at the constructors that have them.

## Main definitions

* `SymbolKind`, `MemberKind`, `AccessorSelection`: the vocabularies
* `Symbol`: a declared symbol
* `Symbol.Draft`: an unchecked description, and `Symbol.Draft.build`, which checks it
* `Symbol.walk`: a symbol with everything declared inside it
* `Symbol.distinct`: symbols without repeats
-/

namespace Concordance

/-! ### Vocabularies -/

/-- The kinds of declared symbols. -/
inductive SymbolKind where
  | type
  | method
  | property
  | field
deriving DecidableEq, Repr

/-- The name of a kind. -/
def SymbolKind.name : SymbolKind → String
  | .type => "type"
  | .method => "method"
  | .property => "property"
  | .field => "field"

/-- The kind of a given name. -/
def SymbolKind.ofName? (s : String) : Option SymbolKind :=
  [SymbolKind.type, .method, .property, .field].find? fun k => k.name == s

/-- The kinds of symbols that are members of a type. -/
inductive MemberKind where
  | method
  | property
  | field
deriving DecidableEq, Repr

/-- A member kind as a kind of symbol. -/
def MemberKind.toSymbolKind : MemberKind → SymbolKind
  | .method => .method
  | .property => .property
  | .field => .field

/-- The name of a member kind. -/
def MemberKind.name (k : MemberKind) : String := k.toSymbolKind.name

/-- The member kind of a given name. -/
def MemberKind.ofName? (s : String) : Option MemberKind :=
  [MemberKind.method, .property, .field].find? fun k => k.name == s

/-- Which accessors of a property are meant. -/
inductive AccessorSelection where
  | get
  | set
  | both
deriving DecidableEq, Repr

/-- The name of a selection. -/
def AccessorSelection.name : AccessorSelection → String
  | .get => "get"
  | .set => "set"
  | .both => "both"

/-- The selection of a given name. -/
def AccessorSelection.ofName? (s : String) : Option AccessorSelection :=
  [AccessorSelection.get, .set, .both].find? fun k => k.name == s

/-- Whether a selection takes the getter. -/
def AccessorSelection.takesGetter : AccessorSelection → Bool
  | .set => false
  | _ => true

/-- Whether a selection takes the setter. -/
def AccessorSelection.takesSetter : AccessorSelection → Bool
  | .get => false
  | _ => true

theorem SymbolKind.ofName?_name (k : SymbolKind) : ofName? k.name = some k := by
  cases k <;> decide

theorem MemberKind.ofName?_name (k : MemberKind) : ofName? k.name = some k := by
  cases k <;> decide

theorem AccessorSelection.ofName?_name (k : AccessorSelection) : ofName? k.name = some k := by
  cases k <;> decide

/-! ### Symbols -/

/-- What every symbol has. The `home` is the namespace that holds it, empty for none; the
`container` is the qualified name of the type that holds it. -/
structure Label where
  id : String
  name : String
  home : String
  container : Option String
  displayName : String
deriving DecidableEq, Repr

/-- A declared symbol. -/
inductive Symbol where
  | type (label : Label) (members : List Symbol)
  /-- With the role it plays if it is the accessor of a property. -/
  | method (label : Label) (role : Option String)
  | property (label : Label) (getter setter : Option Symbol)
  | field (label : Label)

namespace Symbol

/-- What a symbol shares with symbols of the other kinds. -/
def label : Symbol → Label
  | type l _ => l
  | method l _ => l
  | property l _ _ => l
  | field l => l

/-- The identity of a symbol. -/
def id (s : Symbol) : String := s.label.id

/-- The name of a symbol, not qualified. -/
def name (s : Symbol) : String := s.label.name

/-- The namespace that holds a symbol. -/
def home (s : Symbol) : String := s.label.home

/-- The name shown in answers. -/
def displayName (s : Symbol) : String := s.label.displayName

/-- The kind of a symbol. -/
def kind : Symbol → SymbolKind
  | type .. => .type
  | method .. => .method
  | property .. => .property
  | field .. => .field

/-- The members of a type; nothing else has any. -/
def members : Symbol → List Symbol
  | type _ ms => ms
  | _ => []

/-- The getter of a property. -/
def getter : Symbol → Option Symbol
  | property _ g _ => g
  | _ => none

/-- The setter of a property. -/
def setter : Symbol → Option Symbol
  | property _ _ s => s
  | _ => none

/-- The role of a method that is the accessor of a property. -/
def role : Symbol → Option String
  | method _ r => r
  | _ => none

end Symbol

/-- A name behind the qualified name of its container; an empty container does not count. -/
def qualify (container : Option String) (name : String) : String :=
  match container with
  | some c => if c = "" then name else c ++ "." ++ name
  | none => name

/-- The name of a symbol behind the types that hold it, without the namespace. -/
def Symbol.qualifiedName (s : Symbol) : String := qualify s.label.container s.name

/-- The display name given to a symbol that brings none: its namespace, qualified name and role,
as far as it has them. -/
def defaultDisplayName (home : String) (container : Option String) (name : String)
    (role : Option String) : String :=
  ".".intercalate ([home, qualify container name, role.getD ""].filter (· ≠ ""))

/-! ### Checked construction -/

/-- An unchecked description of a symbol. -/
structure Symbol.Draft where
  id : String
  name : String
  kind : String
  home : String := ""
  container : Option String := none
  members : List Symbol := []
  getter : Option Symbol := none
  setter : Option Symbol := none
  role : Option String := none
  displayName : String := ""

/-- Why a description does not describe a symbol. -/
inductive Symbol.Fault where
  | unknownKind (kind : String)
  | membersOf (kind : SymbolKind)
  | accessorsOf (kind : SymbolKind)
  | roleOf (kind : SymbolKind)
deriving DecidableEq, Repr

/-- The wording of a fault. -/
def Symbol.Fault.message : Symbol.Fault → String
  | .unknownKind k => "Unknown symbol kind: " ++ k
  | .membersOf k => "Only types have members, got kind '" ++ k.name ++ "'"
  | .accessorsOf k => "Only properties have accessors, got kind '" ++ k.name ++ "'"
  | .roleOf k => "Only methods can back a property, got kind '" ++ k.name ++ "'"

/-- Check a description, in the order: kind, members, accessors, role. -/
def Symbol.Draft.build (d : Draft) : Except Symbol.Fault Symbol :=
  match SymbolKind.ofName? d.kind with
  | none => .error (.unknownKind d.kind)
  | some kind =>
    if !d.members.isEmpty && kind ≠ .type then .error (.membersOf kind)
    else if (d.getter.isSome || d.setter.isSome) && kind ≠ .property then
      .error (.accessorsOf kind)
    else if d.role.isSome && kind ≠ .method then .error (.roleOf kind)
    else
      let display :=
        if d.displayName = "" then defaultDisplayName d.home d.container d.name d.role
        else d.displayName
      let label : Label := ⟨d.id, d.name, d.home, d.container, display⟩
      .ok <| match kind with
        | .type => .type label d.members
        | .method => .method label d.role
        | .property => .property label d.getter d.setter
        | .field => .field label

/-! ### What a symbol holds -/

mutual

/-- A symbol, its members with what they hold, and the accessors of a property. -/
def Symbol.walk : Symbol → List Symbol
  | .type l ms => .type l ms :: walkAll ms
  | .property l g s => .property l g s :: (g.toList ++ s.toList)
  | .method l r => [.method l r]
  | .field l => [.field l]

/-- The walks of several symbols, one after the other. -/
def Symbol.walkAll : List Symbol → List Symbol
  | [] => []
  | s :: rest => s.walk ++ walkAll rest

end

theorem Symbol.walkAll_eq_flatMap (ss : List Symbol) : walkAll ss = ss.flatMap walk := by
  induction ss with
  | nil => rfl
  | cons s rest ih => simp [walkAll, ih]

/-- The members of a type with exactly this name and kind; only a type can be asked. An unknown
kind selects nothing. -/
def Symbol.membersNamed (s : Symbol) (name : String) (kind : Option SymbolKind) :
    Except Failure (List Symbol) :=
  match s with
  | .type _ ms => .ok (ms.filter fun m => some m.kind = kind && m.name = name)
  | _ => .error (.kind (s.displayName ++ " is a " ++ s.kind.name ++ ", not a type"))

/-- The accessors of a property that a selection takes; no selection takes none. Only a property
can be asked. -/
def Symbol.accessors (s : Symbol) (selection : Option AccessorSelection) :
    Except Failure (List Symbol) :=
  match s with
  | .property _ g t =>
    .ok <| match selection with
      | none => []
      | some sel =>
        (if sel.takesGetter then g.toList else []) ++ (if sel.takesSetter then t.toList else [])
  | _ => .error (.kind (s.displayName ++ " is a " ++ s.kind.name ++ ", not a property"))

/-! ### Identity -/

/-- Keep the first of the symbols that share an id; `seen` holds the ids already met. -/
def Symbol.distinctFrom (seen : List String) : List Symbol → List Symbol
  | [] => []
  | s :: rest =>
    if s.id ∈ seen then distinctFrom seen rest else s :: distinctFrom (s.id :: seen) rest

/-- Keep the first of the symbols that share an id. -/
def Symbol.distinct (ss : List Symbol) : List Symbol := distinctFrom [] ss

end Concordance
