import Concordance.Syntax.Tree

/-!
# Tokens

The tokens of the analysed language. A text token keeps what stands between its quotes, since a
formatted text holds expressions that are read only when the token is.

## Main definitions

* `Quotation`: a text as it is written
* `Lexeme`, `Token`: what is read, and where it stands
* `keywords`, `marks`: the reserved words and the operators and delimiters
-/

namespace Concordance.Syntax

/-- A text as it is written: the letters before its quotes, and what stands between them. -/
structure Quotation where
  octets : Bool
  raw : Bool
  formatted : Bool
  body : List Char
deriving DecidableEq, Repr

/-- What a token is. -/
inductive Lexeme where
  | word (name : String)
  | keyword (name : String)
  | number (value : Literal)
  | quotation (q : Quotation)
  | mark (name : String)
  | newline
  | indent
  | dedent
  | finish
deriving DecidableEq, Repr

/-- Whether a token only says how lines are laid out. -/
def Lexeme.isLayout : Lexeme → Bool
  | .newline => true
  | .indent => true
  | .dedent => true
  | .finish => true
  | _ => false

/-- A token, the line and column it starts at, and the line it ends on. -/
structure Token where
  lexeme : Lexeme
  line : Nat
  column : Nat
  lastLine : Nat
deriving DecidableEq, Repr

/-- The reserved words. -/
def keywords : List String :=
  ["False", "None", "True", "and", "as", "assert", "async", "await", "break", "class", "continue",
    "def", "del", "elif", "else", "except", "finally", "for", "from", "global", "if", "import",
    "in", "is", "lambda", "nonlocal", "not", "or", "pass", "raise", "return", "try", "while",
    "with", "yield"]

/-- The operators and delimiters of three characters, then of two, then of one. -/
def marks : List (List Char) :=
  ["**=", "...", "//=", "<<=", ">>=",
    "!=", "%=", "&=", "**", "*=", "+=", "-=", "->", "//", "/=", ":=", "<<", "<=", "==", ">=",
    ">>", "@=", "^=", "|=",
    "%", "&", "(", ")", "*", "+", ",", "-", ".", "/", ":", ";", "<", "=", ">", "@", "[", "]",
    "^", "\x7b", "|", "\x7d", "~"].map String.toList

/-- The longest operator or delimiter at the front of a text, and what follows it. -/
def takeMark? (cs : List Char) : Option (List Char × List Char) :=
  (marks.find? fun m => m.isPrefixOf cs).map fun m => (m, cs.drop m.length)

end Concordance.Syntax
