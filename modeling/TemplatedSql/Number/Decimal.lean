import TemplatedSql.Number.Binary

/-!
# Decimal text of numbers

A number is written in plain decimal, without an exponent, with the fewest digits that read back to
the same number; of several decimals with that many digits the nearest is taken, and of two equally
near ones the larger. Reading takes an optional sign, digits with an optional point and an optional
exponent, and the words for infinity and for what is not a number.
-/

namespace TemplatedSql.Number

/-- A decimal fraction `digits * 10 ^ exponent`. -/
structure Decimal where
  digits : Nat
  exponent : Int
deriving DecidableEq

namespace Decimal

/-- The decimal digits of `n`. -/
def digitsOf (n : Nat) : List Char :=
  Nat.toDigits 10 n

/-- The number of decimal digits of `n`. -/
def width (n : Nat) : Nat :=
  (digitsOf n).length

/-- The `k` with `10 ^ (k - 1) ≤ n / d < 10 ^ k`, for positive `n` and `d`. -/
def magnitude (n d : Nat) : Int :=
  if d ≤ n then width (n / d) else 1 - (width ((d - 1) / n) : Int)

/-- Twice the distance bounds of the numbers that round to `m * 2 ^ e`, in quarters of a unit: the gap
below a power of two is half as wide as the one above it. -/
def gapBelow (m : Nat) (e : Int) : Nat :=
  if m = leadingBit ∧ -1074 < e then 1 else 2

/-- Whether a decimal with `k` digits reads back to `m * 2 ^ e`, and which: the better of the two
neighbours of the number among the multiples of `10 ^ u`, where `u` is chosen for `k` digits. -/
def withDigits (m : Nat) (e : Int) (k : Nat) : Option Decimal :=
  -- Everything is measured in units of `2 ^ (e - 2)` over the common denominator `d`.
  let unit := Nat.pow 2 (e - 2).toNat
  let n := 4 * m * unit
  let d := Nat.pow 2 (2 - e).toNat
  let u := magnitude n d - k
  let scale (c : Nat) := c * Nat.pow 10 u.toNat * d
  let shrink (x : Nat) := x * Nat.pow 10 (-u).toNat
  let low := shrink (n - gapBelow m e * unit)
  let high := shrink (n + 2 * unit)
  let inside (c : Nat) :=
    if m % 2 = 0 then decide (low ≤ scale c ∧ scale c ≤ high) else decide (low < scale c ∧ scale c < high)
  let c := shrink n / scale 1
  let below := shrink n - scale c
  let above := scale (c + 1) - shrink n
  if inside c && (!inside (c + 1) || below < above) then some ⟨c, u⟩
  else if inside (c + 1) then some ⟨c + 1, u⟩
  else none

/-- The shortest decimal that reads back to `m * 2 ^ e`. Seventeen digits always suffice. -/
def shortest (m : Nat) (e : Int) : Decimal :=
  ((List.range' 1 17).findSome? (withDigits m e)).getD ⟨m, 0⟩

/-- Takes trailing zeros, at most `fuel` of them, out of the digits. -/
def strip : Nat → Decimal → Decimal
  | 0, d => d
  | fuel + 1, d =>
    if d.digits % 10 = 0 && d.digits != 0 then strip fuel ⟨d.digits / 10, d.exponent + 1⟩ else d

/-- Written without an exponent: zeros fill the places between the digits and the point. -/
def plain (d : Decimal) : List Char :=
  let d := strip (width d.digits) d
  let ds := digitsOf d.digits
  if 0 ≤ d.exponent then ds ++ List.replicate d.exponent.toNat '0'
  else
    let places := (-d.exponent).toNat
    let ds := List.replicate (places + 1 - ds.length) '0' ++ ds
    ds.take (ds.length - places) ++ '.' :: ds.drop (ds.length - places)

/-- The nearest floating-point number. The bounds on the magnitude keep the powers of ten small: beyond
them the result is infinite or zero. -/
def toFloat (d : Decimal) : Float :=
  if d.digits = 0 then 0.0
  else
    let k := width d.digits + d.exponent
    if 310 < k then infinity
    else if k < -330 then 0.0
    else .ofScientific d.digits (decide (d.exponent < 0)) d.exponent.natAbs

end Decimal

/-- The shortest plain decimal text of `x`. -/
def plainText (x : Float) : String :=
  match parts x with
  | .nan => "NaN"
  | .infinite negative => if negative then "-inf" else "inf"
  | .finite negative m e =>
    let body := if m = 0 then ['0'] else (Decimal.shortest m e).plain
    .ofList (if negative then '-' :: body else body)

/-- The text of `x` where integers below `10 ^ 15` are meant to read as integers: these lose the sign
of zero, and all others are written as `plainText` does. -/
def text (x : Float) : String :=
  match integer? x with
  | some i => if i.natAbs < 1000000000000000 then toString i else plainText x
  | none => plainText x

/-- The value of a run of decimal digits. -/
def digitsValue (cs : List Char) : Nat :=
  cs.foldl (fun n c => 10 * n + (c.toNat - 48)) 0

/-- Reads an exponent: its letter, an optional sign and at least one digit, up to the end. -/
def readExponent : List Char → Option Int
  | [] => some 0
  | c :: cs =>
    if c = 'e' ∨ c = 'E' then
      let (negative, ds) : Bool × List Char :=
        match cs with
        | '-' :: ds => (true, ds)
        | '+' :: ds => (false, ds)
        | ds => (false, ds)
      if ds.isEmpty || !ds.all Char.isDigit then none
      else some (if negative then -digitsValue ds else digitsValue ds)
    else none

/-- Reads digits, an optional point with more digits, and an optional exponent. At least one digit
stands before or after the point. -/
def readDecimal (cs : List Char) : Option Decimal :=
  let whole := cs.takeWhile Char.isDigit
  let (fraction, tail) : List Char × List Char :=
    match cs.dropWhile Char.isDigit with
    | '.' :: r => (r.takeWhile Char.isDigit, r.dropWhile Char.isDigit)
    | r => ([], r)
  if whole.isEmpty && fraction.isEmpty then none
  else (readExponent tail).map fun e => ⟨digitsValue (whole ++ fraction), e - fraction.length⟩

/-- Reads a number without a sign. -/
def readUnsigned (cs : List Char) : Option Float :=
  let word := String.ofList (cs.map Char.toLower)
  if word = "inf" ∨ word = "infinity" then some infinity
  else if word = "nan" then some nan
  else (readDecimal cs).map Decimal.toFloat

/-- Reads the whole text as a number. -/
def read (cs : List Char) : Option Float :=
  match cs with
  | '-' :: r => (readUnsigned r).map (- ·)
  | '+' :: r => readUnsigned r
  | r => readUnsigned r

/-- Reads the whole text as a number. -/
def ofString? (s : String) : Option Float :=
  read s.toList

end TemplatedSql.Number
