import Concordance.Json.Value
import Concordance.Symbol
import Concordance.Text.Lowercase

/-!
# Projects and graphs

A graph is what one load of a workspace found: its projects with the types they declare. Symbols
are looked up by name through an index of the lowered names. The accessors of a property are not
in it, they are reached through their property.

## Main definitions

* `Project`, `Project.index`, `Project.findDeclarations`: a project and its lookup by name
* `Graph`: a loaded workspace, with the references found in it
* `Location`, `Row`: places, and the rows that answers consist of
-/

namespace Concordance

/-- What a project builds. -/
inductive OutputKind where
  | consoleApplication
  | library
deriving DecidableEq, Repr

/-- The name of an output kind in answers. -/
def OutputKind.name : OutputKind → String
  | .consoleApplication => "ConsoleApplication"
  | .library => "DynamicallyLinkedLibrary"

/-! ### The index of lowered names -/

/-- Symbols under their lowered names; the entry of a name holds its symbols in order. -/
abbrev NameIndex := List (String × List Symbol)

/-- Put a symbol behind those that have the same lowered name. -/
def NameIndex.add (key : String) (s : Symbol) : NameIndex → NameIndex
  | [] => [(key, [s])]
  | (k, ss) :: rest => if k = key then (k, ss ++ [s]) :: rest else (k, ss) :: add key s rest

/-- The symbols under a lowered name. -/
def NameIndex.find (key : String) : NameIndex → List Symbol
  | [] => []
  | (k, ss) :: rest => if k = key then ss else find key rest

theorem NameIndex.find_add (key key' : String) (s : Symbol) (ix : NameIndex) :
    (ix.add key s).find key' = if key = key' then ix.find key' ++ [s] else ix.find key' := by
  induction ix with
  | nil =>
    by_cases h : key = key' <;> simp [add, find, h]
  | cons e rest ih =>
    obtain ⟨k, ss⟩ := e
    by_cases h : k = key
    · subst h
      by_cases h' : k = key' <;> simp [add, find, h']
    · by_cases h' : k = key'
      · subst h'
        have hk : ¬ key = k := fun e => h e.symm
        simp [add, find, h, hk]
      · simp [add, find, h, h', ih]

/-- Index symbols by their lowered names, those that are accessors apart. -/
def NameIndex.ofSymbols (ss : List Symbol) : NameIndex :=
  ss.foldl (fun ix s => if s.role.isSome then ix else ix.add (Text.lower s.name) s) []

/-! ### Projects -/

/-- A project of a workspace. Its name is mostly a text, but metadata may give any value. -/
structure Project where
  name : Json.Value
  kind : Option String := none
  declarations : List Symbol := []
  rootPath : String := ""

/-- The index of everything a project declares. -/
def Project.index (p : Project) : NameIndex :=
  NameIndex.ofSymbols (Symbol.walkAll p.declarations)

/-- The declared symbols of a name, in declaration order. -/
def Project.findDeclarations (p : Project) (name : String) (ignoreCase : Bool) : List Symbol :=
  let candidates := p.index.find (Text.lower name)
  if ignoreCase then candidates else candidates.filter fun s => s.name = name

/-! ### Graphs and rows -/

/-- Where a symbol is referred to; lines count from zero. -/
structure Location where
  path : String
  line : Int
  inSource : Bool := true
deriving DecidableEq, Repr

/-- The references found in one project: the locations of each symbol id. -/
abbrev ReferenceIndex := List (String × List Location)

/-- What one load of a workspace found. The reference indices stand in the order of the
projects. -/
structure Graph where
  rootPath : String := ""
  projects : List Project := []
  moduleCount : Nat := 0
  skipped : List String := []
  references : List ReferenceIndex := []

/-- One row of an answer. -/
structure Row where
  displayName : String
  path : String
  line : Int
deriving DecidableEq, Repr

/-- Rows are ordered by display name, then path, then line. -/
def Row.le (a b : Row) : Bool :=
  if a.displayName = b.displayName then
    if a.path = b.path then decide (a.line ≤ b.line) else decide (a.path < b.path)
  else decide (a.displayName < b.displayName)

/-- Rows in ascending order. -/
def Row.sort (rows : List Row) : List Row := rows.mergeSort Row.le

end Concordance
