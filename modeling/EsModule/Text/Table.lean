import EsModule.Number.Decimal

/-!
# Tables of characters

A class of characters is kept as the increasing list of the code points at which membership
changes, beginning outside the class. A code point belongs to the class when an odd number of
boundaries lie at or below it.

A large table of code points is written in lines of text: its numbers are hexadecimal with blanks
between them, and its rows, if it has rows, are parted by commas.
-/

namespace EsModule.Text

open EsModule.Number

/-- Whether a code point belongs to the class with these boundaries. -/
def inClass (boundaries : Array Nat) (code : Nat) : Bool :=
  boundaries.foldl (fun inside b => if b ≤ code then !inside else inside) false

/-- The number that some hexadecimal digits are. -/
def hexNumber (digits : String) : Nat := readDigits 16 digits.toList

/-- The numbers that a line holds. -/
def numbersOf (line : String) : List Nat := (line.splitOn " ").map hexNumber

/-- The numbers that some lines hold. -/
def numbers (lines : List String) : Array Nat := (lines.flatMap numbersOf).toArray

/-- The rows that some lines hold. -/
def rows (lines : List String) : Array (List Nat) :=
  (lines.flatMap fun line => (line.splitOn ",").map numbersOf).toArray

end EsModule.Text
