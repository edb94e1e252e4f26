/-!
# The shortest decimal of a binary fraction

Of all decimals that read back as a given floating point number, one with the fewest digits, and
of those the nearest. The number is taken apart into a mantissa and a power of two and the work is
done in exact arithmetic on natural numbers.

## Main definitions

* `Fraction`: a fraction as a pair of natural numbers
* `shortest`: digits and exponent of the shortest decimal
* `text`: the text of a floating point number
-/

namespace Concordance.Decimal

/-- The fraction `top / bottom`. -/
structure Fraction where
  top : Nat
  bottom : Nat

/-- `m * 2 ^ q` as a fraction. -/
def Fraction.binary (m : Nat) (q : Int) : Fraction :=
  if 0 ≤ q then ⟨m * Nat.pow 2 q.toNat, 1⟩ else ⟨m, Nat.pow 2 (-q).toNat⟩

/-- `d * 10 ^ p` as a fraction. -/
def Fraction.decimal (d : Nat) (p : Int) : Fraction :=
  if 0 ≤ p then ⟨d * Nat.pow 10 p.toNat, 1⟩ else ⟨d, Nat.pow 10 (-p).toNat⟩

/-- Strictly below. -/
def Fraction.lt (a b : Fraction) : Bool := a.top * b.bottom < b.top * a.bottom

/-- Below or equal. -/
def Fraction.le (a b : Fraction) : Bool := a.top * b.bottom ≤ b.top * a.bottom

/-- The whole number of times that `10 ^ p` goes into a fraction. -/
def Fraction.units (a : Fraction) (p : Int) : Nat :=
  if 0 ≤ p then a.top / (a.bottom * Nat.pow 10 p.toNat)
  else a.top * Nat.pow 10 (-p).toNat / a.bottom

/-- The number of decimal digits, by division. -/
def digitCount : Nat → Nat → Nat
  | 0, _ => 0
  | fuel + 1, n => if n < 10 then 1 else 1 + digitCount fuel (n / 10)

/-- The least number of decimal places that shows a digit other than zero, up to a bound. -/
def leadingPlaces (a : Fraction) : Nat → Nat → Nat
  | 0, j => j
  | fuel + 1, j => if a.bottom ≤ a.top * Nat.pow 10 j then j else leadingPlaces a fuel (j + 1)

/-- The exponent of the leading decimal digit. -/
def leadingExponent (a : Fraction) : Int :=
  let whole := a.top / a.bottom
  if whole = 0 then -(leadingPlaces a 400 1 : Int) else (digitCount 400 whole : Int) - 1

/-- The reals that read back as one number: those between the ends, which belong to it or not. -/
structure Interval where
  low : Fraction
  high : Fraction
  closed : Bool

/-- Whether a fraction reads back as the number. -/
def Interval.contains (i : Interval) (a : Fraction) : Bool :=
  if i.closed then i.low.le a && a.le i.high else i.low.lt a && a.lt i.high

/-- The interval of `m * 2 ^ q`; below a power of two the numbers lie twice as dense, unless it is
the least exponent. -/
def Interval.of (m : Nat) (q : Int) : Interval where
  low :=
    if m = Nat.pow 2 52 ∧ q ≠ -1074 then Fraction.binary (4 * m - 1) (q - 2)
    else Fraction.binary (2 * m - 1) (q - 1)
  high := Fraction.binary (2 * m + 1) (q - 1)
  closed := m % 2 = 0

/-- The better of the two neighbours of a number on the grid of `10 ^ p`, if one reads back. -/
def neighbour (v : Fraction) (i : Interval) (p : Int) : Option Nat :=
  let d := v.units p
  let lower := 0 < d && i.contains (Fraction.decimal d p)
  let upper := i.contains (Fraction.decimal (d + 1) p)
  if lower && upper then
    -- twice the number against the sum of the two neighbours
    let middle := Fraction.decimal (2 * d + 1) p
    let double : Fraction := ⟨2 * v.top, v.bottom⟩
    if double.lt middle then some d
    else if middle.lt double then some (d + 1)
    else some (if d % 2 = 0 then d else d + 1)
  else if lower then some d
  else if upper then some (d + 1)
  else none

/-- Try grids of more and more digits: `left` is how many more may be tried, `p` the grid. -/
def search (v : Fraction) (i : Interval) : Nat → Int → Nat × Int
  | 0, p => (v.units p, p)
  | left + 1, p =>
    match neighbour v i p with
    | some d => (d, p)
    | none => search v i left (p - 1)

/-- Drop the zeros at the end of the digits. -/
def dropZeros : Nat → Nat × Int → Nat × Int
  | 0, r => r
  | fuel + 1, (d, p) => if d ≠ 0 ∧ d % 10 = 0 then dropZeros fuel (d / 10, p + 1) else (d, p)

/-- Digits and exponent of the shortest decimal that reads back as `m * 2 ^ q`, for `m` not
zero. -/
def shortest (m : Nat) (q : Int) : Nat × Int :=
  let v := Fraction.binary m q
  dropZeros 20 (search v (Interval.of m q) 17 (leadingExponent v))

/-! ### Texts -/

/-- A point within or around digits: `point` digits stand before it. -/
def positional (digits : List Char) (point : Int) : List Char :=
  if point ≤ 0 then '0' :: '.' :: (List.replicate (-point).toNat '0' ++ digits)
  else if digits.length ≤ point.toNat then
    digits ++ List.replicate (point.toNat - digits.length) '0' ++ ['.', '0']
  else digits.take point.toNat ++ '.' :: digits.drop point.toNat

/-- One digit before the point and an exponent of at least two digits with its sign. -/
def scientific (digits : List Char) (exponent : Int) : List Char :=
  let mantissa :=
    match digits with
    | [] => ['0']
    | [d] => [d]
    | d :: rest => d :: '.' :: rest
  let size := Nat.toDigits 10 exponent.natAbs
  let size := if size.length < 2 then '0' :: size else size
  mantissa ++ 'e' :: (if exponent < 0 then '-' else '+') :: size

/-- The text of a positive number given by its shortest decimal: positional from `0.0001` up to
below `10 ^ 16`, scientific outside. -/
def textOfDecimal (digits : Nat) (exponent : Int) : List Char :=
  let ds := Nat.toDigits 10 digits
  let leading := exponent + ds.length - 1
  if -4 ≤ leading ∧ leading < 16 then positional ds (leading + 1) else scientific ds leading

/-- The text of a floating point number. -/
def text (x : Float) : String :=
  let bits : Nat := x.toBits.toNat
  let negative : Bool := bits / Nat.pow 2 63 = 1
  let exponent : Nat := bits / Nat.pow 2 52 % Nat.pow 2 11
  let fraction : Nat := bits % Nat.pow 2 52
  let body : List Char :=
    if exponent = 2047 then (if fraction = 0 then "inf" else "nan").toList
    else if exponent = 0 ∧ fraction = 0 then "0.0".toList
    else
      let (d, p) :=
        if exponent = 0 then shortest fraction (-1074)
        else shortest (fraction + Nat.pow 2 52) ((exponent : Int) - 1075)
      textOfDecimal d p
  let body :=
    if negative && !(exponent = 2047 && fraction ≠ 0) then '-' :: body else body
  String.ofList body

end Concordance.Decimal
