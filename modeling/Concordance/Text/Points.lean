import Concordance.Text.Quoted

/-!
# Texts by code points

An escape can ask for half of a surrogate pair. Such a half has a code point and counts as one
character, but it is none: a text with halves is a list of code points and nothing else, and it has
no encoding. What is said where one should have been encoded names the first run of halves.

## Main definitions

* `charOf?`, `charsOf?`: characters by their code points
* `halvesText`: what is said about a text that cannot be encoded
-/

namespace Concordance.Text

/-- A character by its code point. -/
def charOf? (n : Nat) : Option Char := if n.isValidChar then some (Char.ofNat n) else none

/-- Characters by their code points, if there is no half among them. -/
def charsOf? (points : List Nat) : Option (List Char) := points.mapM charOf?

/-- Whether a code point is that of half of a surrogate pair. -/
def isHalf (n : Nat) : Bool := 0xD800 ≤ n && n < 0xE000

/-- What is said about a text with halves that should be encoded. -/
def halvesText (points : List Nat) : String :=
  let first := points.findIdx isHalf
  let run := (points.drop first).takeWhile isHalf
  let what :=
    match run with
    | [half] =>
      "character '" ++ String.ofList (escapeNumber half) ++ "' in position " ++ toString first
    | _ =>
      "characters in position " ++ toString first ++ "-" ++ toString (first + run.length - 1)
  "'utf-8' codec can't encode " ++ what ++ ": surrogates not allowed"

/-- A character is found by its own code point only. -/
theorem charOf?_eq_some_iff {n : Nat} {c : Char} : charOf? n = some c ↔ n = c.toNat := by
  rw [charOf?]
  constructor
  · intro h
    split at h
    · rename_i hvalid
      cases h
      rw [Char.ofNat, dif_pos hvalid]
      rfl
    · cases h
  · rintro rfl
    rw [if_pos (show c.toNat.isValidChar from c.valid), Char.ofNat_toNat]

theorem charsOf?_eq_some_iff {points : List Nat} {cs : List Char} :
    charsOf? points = some cs ↔ points = cs.map Char.toNat := by
  induction points generalizing cs with
  | nil => cases cs <;> simp [charsOf?]
  | cons n rest ih =>
    simp only [charsOf?] at ih
    cases cs with
    | nil => simp [charsOf?, Option.bind_eq_some_iff]
    | cons c cs => simp [charsOf?, Option.bind_eq_some_iff, charOf?_eq_some_iff, ih]

example : halvesText [0x20, 0xD800, 0x61] =
    "'utf-8' codec can't encode character '\\ud800' in position 1: surrogates not allowed" := by
  decide +kernel

end Concordance.Text
