import Concordance.Text.Blank
import Concordance.Text.Glob
import Concordance.Text.Lines
import Concordance.Workspace.Path

/-!
# What is skipped

The rules by which files and directories of a workspace are left out: names that are always left
out, names of files that may hold secrets, the patterns of an ignore file and those of the
settings. The first two kinds apply to every part of a path below the root, the last two to the
whole path below the root and to the name.

## Main definitions

* `IgnoreRules`: the rules of a workspace
* `IgnoreRules.patternsOf`: the patterns of an ignore file
* `IgnoreRules.ignores`: whether a path is left out
-/

namespace Concordance

open Text

/-- The rules of a workspace: its root, the patterns of the settings and those of the ignore
file. -/
structure IgnoreRules where
  root : Path
  patterns : List String := []
  filePatterns : List String := []

namespace IgnoreRules

/-- The names of directories for dependencies, caches and builds. -/
def alwaysIgnored : List String :=
  [".git", "__pycache__", ".venv", "venv", "env", "node_modules", ".tox", ".nox",
    ".pytest_cache", ".mypy_cache", ".ruff_cache", ".eggs", "*.egg-info", "site-packages",
    "dist", "build"]

/-- The names of files that are never read. -/
def sensitive : List String :=
  [".env", ".env.*", "credentials.json", "*.key", "*.pem", "*_secret", "id_rsa", "id_ed25519",
    "secrets.yaml", "secrets.yml", ".pypirc", ".aws"]

/-- The name of the ignore file. -/
def fileName : String := ".gitignore"

/-- A pattern of more characters than this is not taken. -/
def longestPattern : Nat := 1000

/-- Drop the slashes at either end. -/
def stripSlashes (cs : List Char) : List Char :=
  ((cs.reverse.dropWhile (· = '/')).reverse).dropWhile (· = '/')

/-- The pattern on a line of an ignore file. Comments and exceptions are none. -/
def patternOfLine (line : List Char) : Option String :=
  let cs := stripChars line
  match cs with
  | [] => none
  | c :: _ =>
    if c = '#' || c = '!' || longestPattern < cs.length then none
    else some (String.ofList (stripSlashes cs))

/-- The patterns of an ignore file, as far as it can be read. -/
def patternsOf (octets : List UInt8) : List String := (readLines octets).filterMap patternOfLine

/-- A path as seen from the root, if it lies below it. -/
def seen (r : IgnoreRules) (p : Path) : Path := (p.relativeTo? r.root).getD p

/-- Whether a path is left out. -/
def ignores (r : IgnoreRules) (p : Path) : Bool :=
  let below := r.seen p
  (alwaysIgnored ++ sensitive).any (fun pattern => below.components.any (globMatch pattern)) ||
    (r.filePatterns ++ r.patterns).any fun pattern =>
      globMatch pattern below.text || globMatch pattern p.name

end IgnoreRules

end Concordance
