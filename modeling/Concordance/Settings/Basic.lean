import Concordance.Text.Quoted
import Concordance.Yaml.Schema

/-!
# Settings

What can be set about loading, answering and watching a workspace. Every setting has a name, a range
of values and a value that it has from the start. Settings are taken from a table: names that are
not known and values out of range are passed over.

## Main definitions

* `Setting`, `Setting.accepts`: the settings and their ranges
* `Settings`: their values
* `Settings.merge`: taking over the values of a table
-/

namespace Concordance

/-- The settings. -/
inductive Setting where
  | ignorePatterns
  | mostBytes
  | mostLines
  | workers
  | loadTimeout
  | indent
  | preload
  | watch
  | quietPeriod
deriving DecidableEq, Repr

namespace Setting

/-- All settings. -/
def all : List Setting :=
  [ignorePatterns, mostBytes, mostLines, workers, loadTimeout, indent, preload, watch, quietPeriod]

/-- The name of a setting. -/
def name : Setting → String
  | ignorePatterns => "ignore_patterns"
  | mostBytes => "max_file_size_bytes"
  | mostLines => "max_file_lines"
  | workers => "resolver_max_workers"
  | loadTimeout => "load_timeout_seconds"
  | indent => "json_indent"
  | preload => "preload_on_startup"
  | watch => "watch_workspace"
  | quietPeriod => "watch_debounce_seconds"

/-- The setting of a name. -/
def ofName? (name : String) : Option Setting := all.find? fun s => s.name = name

/-- Whether a value is a whole number above zero. -/
def isCount : Yaml.Value → Bool
  | .int n => 0 < n
  | _ => false

/-- Whether a value is a truth value. -/
def isTruth : Yaml.Value → Bool
  | .bool _ => true
  | _ => false

/-- Whether a value is a number above zero. -/
def isPeriod : Yaml.Value → Bool
  | .int n => 0 < n
  | .float x => 0.0 < x
  | _ => false

/-- Whether a value is a number of blanks up to eight. -/
def isIndent : Yaml.Value → Bool
  | .int n => 0 ≤ n && n ≤ 8
  | _ => false

/-- Whether a value is a list of texts. -/
def isTexts : Yaml.Value → Bool
  | .array items => items.all fun v => v.string?.isSome
  | _ => false

/-- Whether a value is in the range of a setting. -/
def accepts (s : Setting) (v : Yaml.Value) : Bool :=
  match s with
  | ignorePatterns => isTexts v
  | mostBytes => isCount v
  | mostLines => isCount v
  | workers => isCount v
  | loadTimeout => isCount v
  | indent => isIndent v
  | preload => isTruth v
  | watch => isTruth v
  | quietPeriod => isPeriod v

theorem ofName?_name (s : Setting) : ofName? s.name = some s := by cases s <;> decide

/-- Whether a value is in the range of the setting of a name, which has to be known. -/
def acceptsNamed (name : String) (v : Yaml.Value) : Except Failure Bool :=
  match ofName? name with
  | some s => .ok (s.accepts v)
  | none => .error (.key (Text.quoteText name))

end Setting

/-- The values of the settings. -/
structure Settings where
  /-- Patterns of the files that are left out. -/
  ignorePatterns : List String := []
  /-- Files with more bytes are skipped. -/
  mostBytes : Int := 10485760
  /-- Files with more lines are skipped. -/
  mostLines : Int := 20000
  /-- The number of projects that are looked through at the same time. -/
  workers : Int := 8
  /-- The number of seconds after which a load is called off. -/
  loadTimeout : Int := 600
  /-- The blanks by which answers are indented; none for answers on one line. -/
  indent : Int := 2
  /-- Whether the workspace is loaded from the start. -/
  preload : Bool := true
  /-- Whether changed files lead to a new load. -/
  watch : Bool := false
  /-- The number of seconds without a change before a new load. -/
  quietPeriod : Float := 1.0

namespace Settings

/-- Give a setting a value. A value of the wrong kind changes nothing. -/
def put (s : Settings) (key : Setting) (v : Yaml.Value) : Except Failure Settings :=
  match key, v with
  | .ignorePatterns, .array items => .ok { s with ignorePatterns := items.filterMap (·.string?) }
  | .mostBytes, .int n => .ok { s with mostBytes := n }
  | .mostLines, .int n => .ok { s with mostLines := n }
  | .workers, .int n => .ok { s with workers := n }
  | .loadTimeout, .int n => .ok { s with loadTimeout := n }
  | .indent, .int n => .ok { s with indent := n }
  | .preload, .bool b => .ok { s with preload := b }
  | .watch, .bool b => .ok { s with watch := b }
  | .quietPeriod, .int n => (Yaml.floatOfInt n).map fun x => { s with quietPeriod := x }
  | .quietPeriod, .float x => .ok { s with quietPeriod := x }
  | _, _ => .ok s

/-- Take over an entry of a table if its key names a setting and its value is in range. What is
passed over is told, so that it has to be something that can be. -/
def take (s : Settings) (entry : Yaml.Value × Yaml.Value) : Except Failure Settings :=
  match entry.1.string?.bind Setting.ofName? with
  | none => (entry.1.checkShown).map fun _ => s
  | some key =>
    if key.accepts entry.2 then s.put key entry.2 else (entry.2.checkShown).map fun _ => s

/-- Enter a pair into a table; texts stay where they first came. -/
def enter (fields : List (Yaml.Value × Yaml.Value)) (entry : Yaml.Value × Yaml.Value) :
    List (Yaml.Value × Yaml.Value) :=
  let isSame := fun (e : Yaml.Value × Yaml.Value) =>
    match e.1.string?, entry.1.string? with
    | some a, some b => a == b
    | _, _ => false
  if fields.any isSame then fields.map fun e => if isSame e then entry else e
  else fields ++ [entry]

/-- Take over the entries of a table. Of several entries of a key the last one counts. -/
def merge (fields : List (Yaml.Value × Yaml.Value)) : Except Failure Settings :=
  (fields.foldl enter []).foldlM take {}

/-- The blanks by which answers are indented, if they are. -/
def indent? (s : Settings) : Option Nat := if s.indent = 0 then none else some s.indent.toNat

end Settings

end Concordance
