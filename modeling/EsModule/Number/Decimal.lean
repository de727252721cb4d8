import EsModule.Number.Binary64

/-!
# Decimal text of numbers

A decimal is a natural number of digits and a power of ten. `Decimal.read?` reads one from text
with an optional point and an optional exponent, `Decimal.positional` writes one without an
exponent, and `Binary64.ofDecimal` gives the nearest floating point number.

Decimals that are far beyond the greatest number or far below the least one are settled by their
order of magnitude, so that a long exponent costs nothing. Reading is correctly rounded and writing
is shortest, which is what standard libraries document; hexadecimal floating point text is left out.
-/

namespace EsModule.Number

/-- The value `digits * 10 ^ exponent`. -/
structure Decimal where
  /-- All digits, as one natural number. -/
  digits : Nat
  /-- The power of ten that scales them. -/
  exponent : Int
deriving DecidableEq

/-- The value of a digit in any radix up to sixteen. -/
def digitValue? (c : Char) : Option Nat :=
  let n := c.toNat
  if 48 ≤ n && n ≤ 57 then some (n - 48)
  else if 97 ≤ n && n ≤ 102 then some (n - 87)
  else if 65 ≤ n && n ≤ 70 then some (n - 55)
  else none

/-- Whether a character is a digit in a radix up to sixteen. -/
def isDigitOf (radix : Nat) (c : Char) : Bool :=
  match digitValue? c with
  | some d => d < radix
  | none => false

/-- The natural number that digits of a radix stand for. -/
def readDigits (radix : Nat) (cs : List Char) : Nat :=
  cs.foldl (fun n c => n * radix + (digitValue? c).getD 0) 0

/-- How many decimal digits a natural number is written with. -/
def decimalWidth (n : Nat) : Nat := (Nat.toDigits 10 n).length

namespace Decimal

/-- Reads an exponent: a sign, or none, and at least one digit, up to the end of the text. -/
def readExponent? (cs : List Char) : Option Int :=
  let (negative, digits) :=
    match cs with
    | '-' :: r => (true, r)
    | '+' :: r => (false, r)
    | r => (false, r)
  if digits.isEmpty || !digits.all Char.isDigit then none
  else
    let n : Int := readDigits 10 digits
    some (if negative then -n else n)

/-- Reads a decimal: digits with at most one point among them, and perhaps an exponent. There has to
be a digit before the exponent. -/
def read? (cs : List Char) : Option Decimal :=
  let whole := cs.takeWhile Char.isDigit
  let behind := cs.dropWhile Char.isDigit
  let (fraction, tail) :=
    match behind with
    | '.' :: r => (r.takeWhile Char.isDigit, r.dropWhile Char.isDigit)
    | r => ([], r)
  let digits := readDigits 10 (whole ++ fraction)
  if whole.isEmpty && fraction.isEmpty then none
  else
    match tail with
    | [] => some ⟨digits, -fraction.length⟩
    | c :: r =>
      if c == 'e' || c == 'E' then
        (readExponent? r).map fun e => ⟨digits, e - fraction.length⟩
      else none

/-- A decimal written with digits and at most one point, and no exponent. -/
def positional (d : Decimal) : List Char :=
  let digits := Nat.toDigits 10 d.digits
  if 0 ≤ d.exponent then digits ++ List.replicate d.exponent.toNat '0'
  else
    let places := (-d.exponent).toNat
    if digits.length ≤ places then
      ['0', '.'] ++ List.replicate (places - digits.length) '0' ++ digits
    else
      digits.take (digits.length - places) ++ '.' :: digits.drop (digits.length - places)

end Decimal

/-- No decimal at or above this power of ten has a finite floating point number near it. -/
def greatestMagnitude : Int := 310

/-- Every decimal below this power of ten is nearer to zero than to the least positive number. -/
def leastMagnitude : Int := -330

/-- The floating point number nearest to a decimal. -/
def Binary64.ofDecimal (d : Decimal) : Binary64 :=
  let magnitude : Int := decimalWidth d.digits + d.exponent
  if d.digits = 0 then .zero
  else if greatestMagnitude < magnitude then .infinity
  else if magnitude < leastMagnitude then .zero
  else if 0 ≤ d.exponent then .ofRatio (d.digits * Nat.pow 10 d.exponent.toNat) 1
  else .ofRatio d.digits (Nat.pow 10 (-d.exponent).toNat)

/-!
## The shortest decimal

Among all decimals that read back as a given finite number, `Binary64.shortest` picks one with the
fewest digits, and of those the nearest. For one digit, two digits and so on up to seventeen it
tries the two neighbours of the number on the grid of decimals with so many digits, and takes the
first that reads back. Seventeen digits always suffice, but nothing rests on that: if no grid had a
hit, the exact decimal expansion would be taken, which reads back in any case.
-/

namespace Binary64

/-- The magnitude in units of `10 ^ exponent`, as a numerator and a denominator. -/
def scaledBy (x : Binary64) (exponent : Int) : Nat × Nat :=
  if 0 ≤ exponent then (x.units, Nat.pow 2 unitExponent * Nat.pow 10 exponent.toNat)
  else (x.units * Nat.pow 10 (-exponent).toNat, Nat.pow 2 unitExponent)

/-- The least power of ten above the magnitude of a positive finite number. Every such number is
above `10 ^ (-330)`, so the first 330 places show its first digit. -/
def decimalMagnitude (x : Binary64) : Int :=
  let (num, den) := x.scaledBy (-330)
  (decimalWidth (num / den) : Int) - 330

/-- The next point behind `⟨digits, exponent⟩` on the grid of decimals with `count` digits. Behind
the last one comes a power of ten, which takes a single digit. -/
def nextOnGrid (count digits : Nat) (exponent : Int) : Decimal :=
  if digits + 1 = Nat.pow 10 count then ⟨1, exponent + count⟩ else ⟨digits + 1, exponent⟩

/-- Of the neighbours of `num / den` on the grid of decimals with `count` digits, the one that reads
back. If both do, it is the nearer one; halfway between them the upper one is taken. -/
def neighbour? (reads : Decimal → Bool) (count : Nat) (exponent : Int) (num den : Nat) :
    Option Decimal :=
  let lower : Decimal := ⟨num / den, exponent⟩
  let upper := nextOnGrid count (num / den) exponent
  match reads lower, reads upper with
  | true, true => some (if 2 * (num % den) < den then lower else upper)
  | true, false => some lower
  | false, true => some upper
  | false, false => none

/-- The decimal with `count` digits that reads back as the magnitude of `x` and is nearest to it, if
one of the two neighbours on that grid reads back. -/
def nearestWith (x : Binary64) (count : Nat) : Option Decimal :=
  let exponent := x.decimalMagnitude - count
  let scaled := x.scaledBy exponent
  neighbour? (fun d => (ofDecimal d).index == x.index) count exponent scaled.1 scaled.2

/-- The exact decimal expansion of the magnitude: 1074 places suffice for every finite number. -/
def exactDecimal (x : Binary64) : Decimal := ⟨x.units * Nat.pow 5 unitExponent, -unitExponent⟩

/-- The shortest decimal that reads back as the magnitude of a finite number. -/
def shortest (x : Binary64) : Decimal :=
  if x.index = 0 then ⟨0, 0⟩
  else ((List.range 17).findSome? fun k => x.nearestWith (k + 1)).getD x.exactDecimal

/-- The number written with the digits of its shortest decimal, and never with an exponent. -/
def positional (x : Binary64) : List Char :=
  (if x.isNegative then ['-'] else []) ++ x.shortest.positional

end Binary64

end EsModule.Number
