import Concordance.Workspace.Path

/-!
# Options of the command line

The options that a server is started with. Options have long names, which may be cut short as long
as they stay unique; a value follows as the next argument or behind an equals sign. Of several
values the last one counts.

## Main definitions

* `Switch`: the options there are
* `Options`: their values
* `Options.parse`: the values that arguments give
-/

namespace Concordance.Command

/-- The options. -/
inductive Switch where
  | help
  | workspaceRoot
  | config
  | transport
  | logLevel
  | logDir
  | watch
deriving DecidableEq, Repr

namespace Switch

/-- The names of the options. -/
def names : List (String × Switch) :=
  [("-h", help), ("--help", help), ("--workspace-root", workspaceRoot), ("--config", config),
    ("--transport", transport), ("--log-level", logLevel), ("--log-dir", logDir),
    ("--watch", watch)]

/-- Whether an option has a value. -/
def hasValue : Switch → Bool
  | help => false
  | watch => false
  | _ => true

end Switch

/-- The ways in which clients can be connected. -/
def transports : List String := ["stdio", "streamable-http", "sse"]

/-- The levels that can be chosen. -/
def logLevels : List String := ["DEBUG", "INFO", "WARNING", "ERROR"]

/-- The values of the options. -/
structure Options where
  workspaceRoot : Option String := none
  config : Option Path := none
  transport : String := "stdio"
  logLevel : String := "INFO"
  logDir : Option Path := none
  watch : Option Bool := none
deriving DecidableEq, Repr

/-- Why there are no values: help was asked for, or the arguments are wrong. -/
inductive Refusal where
  | help
  | usage
deriving DecidableEq, Repr

/-- The exit status that a refusal leads to. -/
def Refusal.status : Refusal → Nat
  | .help => 0
  | .usage => 2

/-! ### Arguments -/

/-- What an argument is. -/
inductive Argument where
  /-- An option, with a value behind an equals sign if there is one. -/
  | option (switch : Switch) (value : Option String)
  /-- The letter that asks for help, with what is written right behind it. -/
  | letters (behind : List Char)
  /-- Something like an option that is none. -/
  | unknown
  | word (text : String)
  /-- The mark behind which all arguments are words. -/
  | endMark
deriving DecidableEq, Repr

/-- A text in front of its first equals sign, and what follows the sign. -/
def splitEquals? (s : String) : Option (String × String) :=
  match s.toList.dropWhile (· ≠ '=') with
  | _ :: rest => some (String.ofList (s.toList.takeWhile (· ≠ '=')), String.ofList rest)
  | [] => none

/-- Whether a text writes a negative number. -/
def isNegativeNumber (s : String) : Bool :=
  match s.toList with
  | '-' :: rest =>
    let whole := rest.takeWhile Char.isDigit
    match rest.dropWhile Char.isDigit with
    | [] => !whole.isEmpty
    | '.' :: places => !places.isEmpty && places.all Char.isDigit
    | _ => false
  | _ => false

/-- What a text may be short for. -/
def candidates (s : String) : List Argument :=
  if s.startsWith "--" then
    let (start, value) :=
      match splitEquals? s with
      | some (a, b) => (a, some b)
      | none => (s, none)
    (Switch.names.filter fun p => p.1.startsWith start).map fun p => .option p.2 value
  else
    match s.toList with
    | '-' :: 'h' :: behind => [.letters behind]
    | _ => []

/-- What an argument is in front of the mark. A text that may be short for several options is
wrong. -/
def classify (s : String) : Except Refusal Argument :=
  let known := fun (name : String) => Switch.names.lookup name
  if !s.startsWith "-" then .ok (.word s)
  else
    match known s with
    | some switch => .ok (.option switch none)
    | none =>
      if s = "-" then .ok (.word s)
      else
        match (splitEquals? s).bind fun (name, value) =>
            (known name).map fun switch => Argument.option switch (some value) with
        | some a => .ok a
        | none =>
          match candidates s with
          | [a] => .ok a
          | _ :: _ => .error .usage
          | [] => .ok (if isNegativeNumber s || s.contains ' ' then .word s else .unknown)

/-- What arguments are. -/
def classifyAll : List String → Except Refusal (List Argument)
  | [] => .ok []
  | s :: rest =>
    if s = "--" then .ok (.endMark :: rest.map .word)
    else do
      let a ← classify s
      return a :: (← classifyAll rest)

/-! ### Values -/

/-- Give an option a value. -/
def Options.put (o : Options) (switch : Switch) (value : String) : Except Refusal Options :=
  match switch with
  | .help => .error .help
  | .workspaceRoot => .ok { o with workspaceRoot := some value }
  | .config => .ok { o with config := some (.ofText value) }
  | .transport =>
    if transports.contains value then .ok { o with transport := value } else .error .usage
  | .logLevel =>
    if logLevels.contains value then .ok { o with logLevel := value } else .error .usage
  | .logDir => .ok { o with logDir := some (.ofText value) }
  | .watch => .ok { o with watch := some true }

/-- Why there are no values if help is asked for by a letter: what is written behind it does not
matter, unless it looks like a value or another option. -/
def lettersRefusal (behind : List Char) : Refusal :=
  match behind.dropWhile (· = 'h') with
  | '=' :: _ => .usage
  | '-' :: _ => .usage
  | _ => .help

/-- Take over the values that arguments give. `extra` tells whether there were arguments that mean
nothing. -/
def Options.takeOver (o : Options) (extra : Bool) : List Argument → Except Refusal Options
  | [] => if extra then .error .usage else .ok o
  | .letters behind :: _ => .error (lettersRefusal behind)
  | .option switch value :: rest =>
    match switch.hasValue, value, rest with
    | true, some v, rest => do (← o.put switch v).takeOver extra rest
    | true, none, .word v :: rest => do (← o.put switch v).takeOver extra rest
    | true, none, _ => .error .usage
    | false, some _, _ => .error .usage
    | false, none, rest => do (← o.put switch "").takeOver extra rest
  | _ :: rest => o.takeOver true rest

/-- The values that arguments give. -/
def Options.parse (arguments : List String) : Except Refusal Options := do
  Options.takeOver {} false (← classifyAll arguments)

end Concordance.Command
