/-!
# Glob patterns

Patterns for whole names: a star stands for any characters, a question mark for one, brackets for
one out of a set. A slash is a character like any other. A bracket without its partner stands for
itself. In a set, a range that runs backwards is left out together with its ends.

A pattern is matched by keeping all positions in the name that its pieces so far can lead to, so
that no choice has to be taken back.

## Main definitions

* `Glob.Piece`, `Glob.ofChars`: the pieces of a pattern
* `Glob.matchPieces`: whether pieces match characters
* `globMatch`: whether a pattern matches a name
-/

namespace Concordance.Text

namespace Glob

/-- A piece of a pattern. -/
inductive Piece where
  | anything
  | one
  | literal (c : Char)
  /-- One character in the ranges, or if `negated` outside of them. -/
  | set (negated : Bool) (ranges : List (Char × Char))
deriving DecidableEq, Repr

/-! ### Sets -/

/-- The start of what stands between brackets, up to a closing bracket that does not close: one
that comes first, or first after an exclamation mark. -/
def setLead : List Char → List Char
  | '!' :: ']' :: _ => ['!', ']']
  | '!' :: _ => ['!']
  | ']' :: _ => [']']
  | _ => []

/-- What stands between brackets, and what follows them. -/
def splitSet? (cs : List Char) : Option (List Char × List Char) :=
  let lead := setLead cs
  let body := cs.drop lead.length
  match body.dropWhile (· ≠ ']') with
  | [] => none
  | _ :: rest => some (lead ++ body.takeWhile (· ≠ ']'), rest)

/-- Cut what stands between brackets at the hyphens that make ranges: of the first `skip`
characters, and of the two after such a hyphen, none does. -/
def cutRanges (skip : Nat) : (fuel : Nat) → List Char → List (List Char)
  | 0, cs => [cs]
  | fuel + 1, cs =>
    let tail := cs.drop skip
    match tail.dropWhile (· ≠ '-') with
    | [] => [cs]
    | _ :: rest => (cs.take skip ++ tail.takeWhile (· ≠ '-')) :: cutRanges 2 fuel rest

/-- A hyphen with nothing after it stands for itself. -/
def joinLast : List (List Char) → List (List Char)
  | [] => []
  | [a, []] => [a ++ ['-']]
  | a :: rest => a :: joinLast rest

/-- Put a piece in front of others, and leave out the range between if it runs backwards. -/
def dropBackward (a : List Char) : List (List Char) → List (List Char)
  | [] => [a]
  | b :: rest =>
    match a.getLast?, b.head? with
    | some x, some y => if y < x then (a.dropLast ++ b.tail) :: rest else a :: b :: rest
    | _, _ => a :: b :: rest

/-- The characters of a set; none stands for a hyphen that makes a range. -/
def setMarks (inside : List Char) : List (Option Char) :=
  if '-' ∈ inside then
    let skip := if inside.head? = some '!' then 2 else 1
    let cut := joinLast (cutRanges skip inside.length inside)
    [none].intercalate ((cut.foldr dropBackward []).map fun a => a.map some)
  else inside.map some

/-- The ranges of a set. A mark that comes first stands for itself. -/
def rangesOf : List (Option Char) → List (Char × Char)
  | a :: none :: some b :: rest => (a.getD '-', b) :: rangesOf rest
  | a :: rest => (a.getD '-', a.getD '-') :: rangesOf rest
  | [] => []

/-- The piece for what stands between brackets. An empty set matches nothing, and all that is not
in it anything. -/
def setPiece (inside : List Char) : Piece :=
  match setMarks inside with
  | some '!' :: rest => .set true (rangesOf rest)
  | marks => .set false (rangesOf marks)

/-! ### Patterns -/

theorem length_dropWhile_le {α : Type} (p : α → Bool) (l : List α) :
    (l.dropWhile p).length ≤ l.length := (List.dropWhile_suffix p).length_le

theorem length_of_splitSet? {cs inside rest : List Char} (h : splitSet? cs = some (inside, rest)) :
    rest.length < cs.length := by
  unfold splitSet? at h
  have len := length_dropWhile_le (· ≠ ']') (cs.drop (setLead cs).length)
  have drop := List.length_drop (i := (setLead cs).length) (l := cs)
  simp only at h
  split at h
  · cases h
  · rename_i e
    rw [e] at len
    simp only [Option.some.injEq, Prod.mk.injEq] at h
    obtain ⟨_, rfl⟩ := h
    simp only [List.length_cons] at len
    omega

/-- The pieces of a pattern. -/
def ofChars : List Char → List Piece
  | [] => []
  | c :: rest =>
    if c = '*' then .anything :: ofChars rest
    else if c = '?' then .one :: ofChars rest
    else if c = '[' then
      match h : splitSet? rest with
      | some (inside, after) =>
        have := length_of_splitSet? h
        setPiece inside :: ofChars after
      | none => .literal '[' :: ofChars rest
    else .literal c :: ofChars rest
termination_by cs => cs.length
decreasing_by all_goals simp_wf <;> omega

/-! ### Matching -/

/-- Whether a piece for one character matches it. -/
def Piece.accepts : Piece → Char → Bool
  | anything, _ => true
  | one, _ => true
  | literal a, c => a = c
  | set negated ranges, c => (ranges.any fun r => r.1 ≤ c && c ≤ r.2) != negated

/-- The ends of a list, longest first. -/
def tails : List Char → List (List Char)
  | [] => [[]]
  | c :: rest => (c :: rest) :: tails rest

/-- The rests of a name that a piece leads to from others. These are ends of the name and come
longest first. -/
def advance (rests : List (List Char)) (p : Piece) : List (List Char) :=
  match p with
  | .anything =>
    match rests with
    | [] => []
    | longest :: _ => tails longest
  | p => rests.filterMap fun r =>
    match r with
    | [] => none
    | c :: r => if p.accepts c then some r else none

/-- Whether pieces match characters. -/
def matchPieces (ps : List Piece) (cs : List Char) : Bool :=
  (ps.foldl advance [cs]).any List.isEmpty

end Glob

/-- Whether a pattern matches a name. -/
def globMatch (pattern name : String) : Bool :=
  Glob.matchPieces (Glob.ofChars pattern.toList) name.toList

end Concordance.Text
