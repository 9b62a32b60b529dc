import TemplatedSql.Number.Decimal
import TemplatedSql.Toml.Value

/-!
# Numbers and dates of TOML

A number or a date is read from the longest run of letters, digits, signs, underscores, points and
colons; the whole run has to be one. An underscore stands between two digits. Integers have 64 bits. A
date and a time may have a blank between them.
-/

namespace TemplatedSql.Toml

/-- Whether `c` can stand in a number or a date. -/
def isScalarPart (c : Char) : Bool :=
  c.isAlphanum || c == '_' || c == '+' || c == '-' || c == '.' || c == ':'

/-- Digits of a base with single underscores between them, without the underscores. -/
def digits? (isDigit : Char → Bool) : List Char → Option (List Char)
  | [] => none
  | [c] => if isDigit c then some [c] else none
  | c :: '_' :: cs => if isDigit c then (digits? isDigit cs).map (c :: ·) else none
  | c :: cs => if isDigit c then (digits? isDigit cs).map (c :: ·) else none

/-- The value of a digit of a base up to sixteen. -/
def digitValue (c : Char) : Nat :=
  if c.isDigit then c.toNat - 48 else c.toLower.toNat - 87

/-- Whether `c` is a digit of a base. -/
def isDigitOf (base : Nat) (c : Char) : Bool :=
  (c.isDigit || ('a' ≤ c.toLower && c.toLower ≤ 'f')) && digitValue c < base

/-- An integer of 64 bits. -/
def integer64? (i : Int) : Option Value :=
  if Number.minInt64 ≤ i ∧ i ≤ Number.maxInt64 then some (.integer i) else none

/-- An integer written in a base. -/
def based? (base : Nat) (cs : List Char) : Option Value := do
  let ds ← digits? (isDigitOf base) cs
  integer64? (ds.foldl (fun n c => base * n + digitValue c) 0 : Nat)

/-- Takes a sign off: whether it was a minus, and the rest. -/
def unsign : List Char → Bool × List Char
  | '-' :: cs => (true, cs)
  | '+' :: cs => (false, cs)
  | cs => (false, cs)

/-- Decimal digits where a zero in front stands alone. -/
def wholeDigits? (cs : List Char) : Option (List Char) :=
  match digits? Char.isDigit cs with
  | some ('0' :: _ :: _) => none
  | ds => ds

/-- An integer. -/
def integer? (cs : List Char) : Option Value :=
  match cs with
  | '0' :: 'x' :: ds => based? 16 ds
  | '0' :: 'o' :: ds => based? 8 ds
  | '0' :: 'b' :: ds => based? 2 ds
  | _ => do
    let (negative, ds) := unsign cs
    let n := Number.digitsValue (← wholeDigits? ds)
    integer64? (if negative then -(n : Int) else n)

/-- Whether `c` announces an exponent. -/
def isExponentMark (c : Char) : Bool :=
  c == 'e' || c == 'E'

/-- The decimal fraction written by a float, without its sign. A fraction or an exponent is present. -/
def fraction? (cs : List Char) : Option Number.Decimal := do
  let mantissa := cs.takeWhile fun c => !isExponentMark c
  let whole ← wholeDigits? (mantissa.takeWhile (· != '.'))
  let places ←
    match mantissa.dropWhile (· != '.') with
    | [] => some []
    | _ :: ds => digits? Char.isDigit ds
  let exponent ←
    match cs.drop mantissa.length with
    | [] => if places.isEmpty then none else some 0
    | _ :: es => do
      let (negative, ds) := unsign es
      let n := Number.digitsValue (← digits? Char.isDigit ds)
      some (if negative then -(n : Int) else n)
  some ⟨Number.digitsValue (whole ++ places), exponent - places.length⟩

/-- A float. One that is too large is refused; below zero it is the negative infinity. -/
def float? (cs : List Char) : Option Value := do
  let (negative, ds) := unsign cs
  let size ←
    if ds = ['i', 'n', 'f'] then some Number.infinity
    else if ds = ['n', 'a', 'n'] then some Number.nan
    else do
      let x := (← fraction? ds).toFloat
      if x == Number.infinity && !negative then none else some x
  some (.float (if negative then -size else size))

/-- A number of exactly so many digits within bounds. -/
def field? (size low high : Nat) (cs : List Char) : Option Nat :=
  let n := Number.digitsValue cs
  if cs.length = size ∧ cs.all Char.isDigit ∧ low ≤ n ∧ n ≤ high then some n else none

/-- How many days a month has. -/
def monthDays (year month : Nat) : Nat :=
  if month = 2 then if year % 4 = 0 ∧ (year % 100 ≠ 0 ∨ year % 400 = 0) then 29 else 28
  else if month = 4 ∨ month = 6 ∨ month = 9 ∨ month = 11 then 30
  else 31

/-- A date with four digits of year and two of month and day. -/
def date? (cs : List Char) : Option (List Char) := do
  let year ← field? 4 0 9999 (cs.take 4)
  let month ← field? 2 1 12 ((cs.drop 5).take 2)
  let _ ← field? 2 1 (monthDays year month) (cs.drop 8)
  if cs[4]? = some '-' ∧ cs[7]? = some '-' then some cs else none

/-- The decimals of a second, at most nine of them and without zeros at the end. -/
def secondFraction? : List Char → Option (List Char)
  | [] => some []
  | '.' :: ds =>
    if ds.isEmpty || !ds.all Char.isDigit then none
    else
      let kept := ((ds.take 9).reverse.dropWhile (· == '0')).reverse
      some (if kept.isEmpty then [] else '.' :: kept)
  | _ => none

/-- A time of day, perhaps with decimals of a second. -/
def time? (cs : List Char) : Option (List Char) := do
  let _ ← field? 2 0 23 (cs.take 2)
  let _ ← field? 2 0 59 ((cs.drop 3).take 2)
  let _ ← field? 2 0 60 ((cs.drop 6).take 2)
  let fraction ← secondFraction? (cs.drop 8)
  if cs[2]? = some ':' ∧ cs[5]? = some ':' then some (cs.take 8 ++ fraction) else none

/-- The distance to universal time. -/
def offset? (cs : List Char) : Option (List Char) := do
  let _ ← field? 2 0 23 ((cs.drop 1).take 2)
  let _ ← field? 2 0 59 (cs.drop 4)
  let clock := cs.drop 1
  if cs[3]? ≠ some ':' then none
  else if cs.head? = some '+' then some cs
  else if cs.head? = some '-' then some (if clock = ['0', '0', ':', '0', '0'] then '+' :: clock else cs)
  else none

/-- A time with a distance to universal time, or without. -/
def offsetTime? (cs : List Char) : Option (List Char) :=
  let clock := cs.takeWhile fun c => c.isDigit || c == ':' || c == '.'
  match cs.drop clock.length with
  | [] => time? clock
  | ['Z'] | ['z'] => (time? clock).map (· ++ ['Z'])
  | offset => do some ((← time? clock) ++ (← offset? offset))

/-- A date, a time, or both. -/
def datetime? (cs : List Char) : Option Value :=
  let text :=
    match cs.drop 10 with
    | [] => date? cs <|> time? cs
    | c :: clock =>
      let both := do
        if c = 'T' ∨ c = 't' ∨ c = ' ' then some ((← date? (cs.take 10)) ++ 'T' :: (← offsetTime? clock))
        else none
      both <|> time? cs
  text.map fun t => .datetime (.ofList t)

/-- The characters of a number or a date at the front, with a time after a blank that follows a date. -/
def scalarSize (cs : List Char) : Nat :=
  let run := cs.takeWhile isScalarPart
  match (date? run).isSome, cs.drop run.length with
  | true, ' ' :: a :: b :: ':' :: rest =>
    if a.isDigit && b.isDigit then run.length + 4 + (rest.takeWhile isScalarPart).length else run.length
  | _, _ => run.length

/-- Reads a number or a date. -/
def scalar? (cs : List Char) : Option (Value × List Char) := do
  let run := cs.take (scalarSize cs)
  let v ← datetime? run <|> float? run <|> integer? run
  some (v, cs.drop run.length)

end TemplatedSql.Toml
