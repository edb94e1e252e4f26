/-!
# Failures

The reasons for which a request ends without an answer. "Nothing found" is not one of them: that
is an empty answer.

## Main definitions

* `Failure`: the causes
* `Failure.message`: what is told to whoever asked
* `Failure.kindName`: the name of a cause
-/

namespace Concordance

/-- Why a request has no answer. -/
inductive Failure where
  /-- The workspace at `root` cannot be loaded. -/
  | load (text : String) (root : String)
  /-- The request names `argument` with a value that cannot be used. -/
  | argument (text : String) (argument : String) (value : Option String)
  /-- The work was called off. -/
  | cancelled (reason : String)
  /-- The settings the process was started with cannot be used. -/
  | configuration (text : String)
  /-- The component asked is in no state to answer. -/
  | state (text : String)
  /-- A value lies outside its domain. -/
  | value (text : String)
  /-- A thing of one kind was given where another is needed. -/
  | kind (text : String)
  /-- A part was asked of a value that has none of that name. -/
  | part (text : String)
  /-- There is no entry under a key. -/
  | key (text : String)
  /-- Bytes are not the encoding of a text. -/
  | encoding (text : String)
  /-- A text has no encoding as bytes. -/
  | unencodable (text : String)
  /-- A number is too large for its representation. -/
  | overflow (text : String)
  /-- A place was asked for behind the end. -/
  | place (text : String)
  /-- Something is nested more deeply than can be followed. -/
  | depth
  /-- A failure of another kind, by the name of the kind. -/
  | other (name : String) (text : String)
deriving DecidableEq, Repr

/-- The wording of a failure. -/
def Failure.message : Failure → String
  | .load text _ => text
  | .argument text _ _ => text
  | .cancelled reason => reason
  | .configuration text => text
  | .state text => text
  | .value text => text
  | .kind text => text
  | .part text => text
  | .key text => text
  | .encoding text => text
  | .unencodable text => text
  | .overflow text => text
  | .place text => text
  | .depth => ""
  | .other _ text => text

/-- The name of a cause. -/
def Failure.kindName : Failure → String
  | .load .. => "LoadError"
  | .argument .. => "InvalidArgumentError"
  | .cancelled _ => "OperationCancelledError"
  | .configuration _ => "ConfigurationError"
  | .state _ => "RuntimeError"
  | .value _ => "ValueError"
  | .kind _ => "TypeError"
  | .part _ => "AttributeError"
  | .key _ => "KeyError"
  | .encoding _ => "UnicodeDecodeError"
  | .unencodable _ => "UnicodeEncodeError"
  | .overflow _ => "OverflowError"
  | .place _ => "IndexError"
  | .depth => "RecursionError"
  | .other name _ => name

/-- Whether a cause is one of this library's own. -/
def Failure.isOwn : Failure → Bool
  | .load .. => true
  | .argument .. => true
  | .cancelled _ => true
  | .configuration _ => true
  | _ => false

/-- Whether a failure says that something given was wrong in itself. -/
def Failure.isBadValue : Failure → Bool
  | .argument .. => true
  | .value _ => true
  | .encoding _ => true
  | .unencodable _ => true
  | _ => false

end Concordance
