/-!
# The parts of a binary floating-point number

A finite number is a sign, a mantissa and a power of two. Everything that has to be exact about a
number (whether it is an integer, its decimal digits, its remainder by another) is computed on these
parts with natural numbers.
-/

namespace TemplatedSql.Number

/-- A floating-point number taken apart: a finite one is `mantissa * 2 ^ exponent`, with a sign. -/
inductive Parts
  | nan
  | infinite (negative : Bool)
  | finite (negative : Bool) (mantissa : Nat) (exponent : Int)
deriving DecidableEq

/-- The bit before the fraction of a normal number: the 52nd power of two. -/
def leadingBit : Nat := 0x10000000000000

/-- The bit of the sign: the 63rd power of two. -/
def signBit : Nat := 0x8000000000000000

/-- Takes the 64 bits apart: one of sign, eleven of exponent and 52 of fraction. -/
def Parts.ofBits (bits : Nat) : Parts :=
  let negative := bits / signBit % 2 == 1
  let exponent : Nat := bits / leadingBit % 2048
  let fraction : Nat := bits % leadingBit
  if exponent = 2047 then
    if fraction = 0 then .infinite negative else .nan
  else if exponent = 0 then .finite negative fraction (-1074)
  else .finite negative (leadingBit + fraction) (exponent - 1075)

/-- The parts of `x`. -/
def parts (x : Float) : Parts :=
  .ofBits x.toBits.toNat

/-- Positive infinity. -/
def infinity : Float := .ofBits 0x7ff0000000000000

/-- Not a number. -/
def nan : Float := .ofBits 0x7ff8000000000000

/-- Whether `x` is not a number. -/
def isNaN (x : Float) : Bool :=
  parts x == .nan

/-- `m * 2 ^ e` as an integer, if it is one. -/
def integerOf? (negative : Bool) (m : Nat) (e : Int) : Option Int :=
  let sign : Int := if negative then -1 else 1
  if 0 ≤ e then some (sign * (m * Nat.pow 2 e.toNat : Nat))
  else
    let d := Nat.pow 2 (-e).toNat
    if m % d = 0 then some (sign * (m / d : Nat)) else none

/-- The integer that `x` is, if it is one. -/
def integer? (x : Float) : Option Int :=
  match parts x with
  | .finite negative m e => integerOf? negative m e
  | _ => none

/-- The least signed integer of 64 bits. -/
def minInt64 : Int := -0x8000000000000000

/-- The greatest signed integer of 64 bits. -/
def maxInt64 : Int := 0x7fffffffffffffff

/-- The nearest integer to `i` among the signed ones of 64 bits. -/
def clamp64 (i : Int) : Int :=
  if i < minInt64 then minInt64 else if maxInt64 < i then maxInt64 else i

/-- The floating-point number of a natural number below `2 ^ 53`, times a power of two, where the
result is representable: the bits are put together directly. -/
def assemble (negative : Bool) (m : Nat) (e : Int) : Float :=
  if m = 0 then (if negative then -0.0 else 0.0)
  else
    -- As many leading bits as fit above the smallest exponent.
    let shift := min (53 - (m.log2 + 1)) (e + 1074).toNat
    let m := m * Nat.pow 2 shift
    let e := e - shift
    let bits := if m < leadingBit then m else (e + 1075).toNat * leadingBit + (m - leadingBit)
    .ofBits (.ofNat (bits + if negative then signBit else 0))

/-- The remainder of `x` by `y` with the sign of `x`, exact: both are multiples of the smaller of the
two powers of two, and so is the remainder. -/
def remainder (x y : Float) : Float :=
  match parts x, parts y with
  | .finite negative m e, .finite _ n f =>
    if n = 0 then nan
    else
      let g := if e ≤ f then e else f
      assemble negative ((m * Nat.pow 2 (e - g).toNat) % (n * Nat.pow 2 (f - g).toNat)) g
  | .finite .., .infinite _ => x
  | _, _ => nan

/-- The remainder of `x` by `y` with the sign of `y`. -/
def modulo (x y : Float) : Float :=
  let r := remainder x y
  if r != 0.0 && (decide (r < 0.0)) != (decide (y < 0.0)) then r + y else r

end TemplatedSql.Number
