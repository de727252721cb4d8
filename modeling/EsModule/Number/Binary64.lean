/-!
# Binary floating point numbers of 64 bits

A number is the word that encodes it. The sign is the top bit; the other 63 bits, read as a natural
number, are the *index* of the magnitude. Larger magnitudes have larger indices, infinity has index
`infinityIndex`, and the indices above that are not numbers.

A finite magnitude is a whole number of `units`, where one unit is 2 ^ (-1074), the least positive
number. So a finite number is known exactly by a sign and a natural number, and rounding a fraction
to the nearest number is done on natural numbers alone, ties to even as in IEEE 754. There is no
arithmetic on numbers, no other rounding, and one value for all that is not a number.
-/

namespace EsModule.Number

/-- The quotient `num / den` rounded to the nearest natural number; a half goes to the even
neighbour. -/
def roundDiv (num den : Nat) : Nat :=
  let q := num / den
  let r := num % den
  if 2 * r < den then q
  else if den < 2 * r then q + 1
  else if q % 2 = 0 then q
  else q + 1

/-- A floating point number of 64 bits. -/
structure Binary64 where
  /-- The word that encodes the number. -/
  bits : UInt64
deriving DecidableEq

namespace Binary64

/-- How many units make one, as a power of two. -/
def unitExponent : Nat := 1074

/-- The number of bits of a magnitude's index below its exponent field. -/
def fractionBits : Nat := 52

/-- The index of infinity: an exponent field of all ones, and no fraction. -/
def infinityIndex : Nat := 2047 * Nat.pow 2 fractionBits

/-- The number with a sign and a magnitude of the given index. -/
def ofIndex (negative : Bool) (index : Nat) : Binary64 :=
  ⟨UInt64.ofNat ((if negative then Nat.pow 2 63 else 0) + index)⟩

/-- The number zero, with a positive sign. -/
def zero : Binary64 := ⟨0⟩

/-- Positive infinity. -/
def infinity : Binary64 := ofIndex false infinityIndex

/-- Whether the sign bit is set. -/
def isNegative (x : Binary64) : Bool := Nat.pow 2 63 ≤ x.bits.toNat

/-- The index of the magnitude. -/
def index (x : Binary64) : Nat := x.bits.toNat % Nat.pow 2 63

/-- Whether the word encodes no number at all. -/
def isNan (x : Binary64) : Bool := infinityIndex < x.index

/-- Whether the word encodes one of the two infinities. -/
def isInfinite (x : Binary64) : Bool := x.index == infinityIndex

/-- Whether the word encodes a finite number. -/
def isFinite (x : Binary64) : Bool := x.index < infinityIndex

/-- The finite magnitude of an index, as a number of units. -/
def unitsOfIndex (index : Nat) : Nat :=
  let e := index / Nat.pow 2 fractionBits
  let f := index % Nat.pow 2 fractionBits
  if e = 0 then f else (Nat.pow 2 fractionBits + f) * Nat.pow 2 (e - 1)

/-- The magnitude of a finite number, as a number of units. -/
def units (x : Binary64) : Nat := unitsOfIndex x.index

/-- Whether a finite number is a whole number. -/
def isInteger (x : Binary64) : Bool := x.isFinite && x.units % Nat.pow 2 unitExponent == 0

/-- The magnitude of a finite number without its fraction. -/
def truncated (x : Binary64) : Nat := x.units / Nat.pow 2 unitExponent

/-- The number nearest to the fraction `num / den`; of two that are equally near, the one with the
even index. Fractions beyond the greatest finite number become infinity. -/
def ofRatio (num den : Nat) : Binary64 :=
  let scaled := num * Nat.pow 2 unitExponent
  let shift := (scaled / den).log2 - fractionBits
  let rounded := roundDiv scaled (den * Nat.pow 2 shift)
  ofIndex false (min infinityIndex (shift * Nat.pow 2 fractionBits + rounded))

/-- The number nearest to a natural number. -/
def ofNat (n : Nat) : Binary64 := ofRatio n 1

/-- The number with the other sign. -/
def neg (x : Binary64) : Binary64 := ofIndex (!x.isNegative) x.index

/-- Equality of values: what is not a number equals nothing, and the two zeros are equal. -/
def equal (x y : Binary64) : Bool :=
  !x.isNan && !y.isNan && (x == y || (x.index == 0 && y.index == 0))

end Binary64

end EsModule.Number
