/-!
# UTF-8

Octets as text. Where octets are no text, the fault says which of them cannot be read and why. A
sequence is refused at the first octet that rules it out: the encodings that are too long, the
surrogates and the numbers above the last character are ruled out by the second octet.

## Main definitions

* `Utf8.Fault`, `Utf8.Fault.message`: why octets are no text
* `Utf8.decode`: octets as characters
* `Utf8.encode`: characters as octets
-/

namespace Concordance.Text.Utf8

/-- Why octets are no text. -/
inductive Reason where
  | invalidStart
  | invalidContinuation
  | unexpectedEnd
deriving DecidableEq, Repr

/-- The wording of a reason. -/
def Reason.text : Reason → String
  | .invalidStart => "invalid start byte"
  | .invalidContinuation => "invalid continuation byte"
  | .unexpectedEnd => "unexpected end of data"

/-- The octets that are no text: the position of the first one, its value, their number, and what
is wrong with them. -/
structure Fault where
  position : Nat
  octet : UInt8
  length : Nat
  reason : Reason
deriving DecidableEq, Repr

/-- A digit of a small hexadecimal number. -/
def smallHexDigit (n : Nat) : Char := Char.ofNat (if n < 10 then 48 + n else 87 + n)

/-- The wording of a fault. -/
def Fault.message (f : Fault) : String :=
  let what :=
    if f.length = 1 then
      "byte 0x" ++ String.ofList [smallHexDigit (f.octet.toNat / 16),
        smallHexDigit (f.octet.toNat % 16)] ++ " in position " ++ toString f.position
    else
      "bytes in position " ++ toString f.position ++ "-" ++ toString (f.position + f.length - 1)
  "'utf-8' codec can't decode " ++ what ++ ": " ++ f.reason.text

/-- The octet at which a fault is noticed; an end that comes too early is noticed nowhere. -/
def Fault.noticedAt? (f : Fault) : Option Nat :=
  match f.reason with
  | .invalidStart => some f.position
  | .invalidContinuation => some (f.position + f.length)
  | .unexpectedEnd => none

/-- Whether an octet continues a sequence. -/
def isContinuation (b : UInt8) : Bool := 0x80 ≤ b && b < 0xC0

/-- The bits that an octet adds to a sequence. -/
def low (b : UInt8) (size : Nat) : Nat := b.toNat % size

/-- Whether an octet can be the second one behind another. -/
def isSecond (first second : UInt8) : Bool :=
  isContinuation second &&
    (if first = 0xE0 then 0xA0 ≤ second
     else if first = 0xED then second < 0xA0
     else if first = 0xF0 then 0x90 ≤ second
     else if first = 0xF4 then second < 0x90
     else true)

/-- Decode octets, the first of which has the position given. -/
def decodeFrom (position : Nat) : List UInt8 → Except Fault (List Char)
  | [] => .ok []
  | a :: rest =>
    if a < 0x80 then (decodeFrom (position + 1) rest).map (Char.ofNat a.toNat :: ·)
    else if a < 0xC2 then .error ⟨position, a, 1, .invalidStart⟩
    else
      match rest with
      | [] => .error ⟨position, a, 1, if a < 0xF5 then .unexpectedEnd else .invalidStart⟩
      | b :: rest =>
        if a < 0xE0 then
          if isSecond a b then
            (decodeFrom (position + 2) rest).map (Char.ofNat (low a 32 * 64 + low b 64) :: ·)
          else .error ⟨position, a, 1, .invalidContinuation⟩
        else if 0xF5 ≤ a then .error ⟨position, a, 1, .invalidStart⟩
        else if !isSecond a b then .error ⟨position, a, 1, .invalidContinuation⟩
        else
          match rest with
          | [] => .error ⟨position, a, 2, .unexpectedEnd⟩
          | c :: rest =>
            if !isContinuation c then .error ⟨position, a, 2, .invalidContinuation⟩
            else if a < 0xF0 then
              (decodeFrom (position + 3) rest).map
                (Char.ofNat ((low a 16 * 64 + low b 64) * 64 + low c 64) :: ·)
            else
              match rest with
              | [] => .error ⟨position, a, 3, .unexpectedEnd⟩
              | d :: rest =>
                if isContinuation d then
                  (decodeFrom (position + 4) rest).map
                    (Char.ofNat (((low a 8 * 64 + low b 64) * 64 + low c 64) * 64 + low d 64) :: ·)
                else .error ⟨position, a, 3, .invalidContinuation⟩

/-- Decode octets. -/
def decode (octets : List UInt8) : Except Fault (List Char) := decodeFrom 0 octets

/-- Encode a text. -/
def encode (s : String) : List UInt8 := s.toUTF8.toList

example : (decode [0x61, 0xFF]).toOption = none := by decide +kernel

example : (decode [0xE2, 0x82, 0xAC]).toOption = some ['€'] := by decide +kernel

end Concordance.Text.Utf8
