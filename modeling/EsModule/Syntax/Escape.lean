import EsModule.Number.Decimal
import EsModule.Syntax.Token
import EsModule.Text.Blank
import EsModule.Text.Offset

/-!
# Escapes

Inside strings and templates a backslash starts an escape: a letter for a control character, two or
four hexadecimal digits, a code point in braces, or a line end that is left out. Any other character
stands for itself. A code point that is no character, such as a lone surrogate, is read as U+FFFD.

`escape` reads what follows the backslash. It gives the character that is meant, or none if a line
goes on, and it moves on over malformed escapes too, up to the character at fault.
-/

namespace EsModule.Syntax

open EsModule.Text EsModule.Number

/-- The character with a code point, or the replacement character if there is none. -/
def scalar (code : Nat) : Char := if code.isValidChar then Char.ofNat code else '\ufffd'

/-- Exactly `count` hexadecimal digits. -/
def hexDigits (count : Nat) (c : Cursor) : Option Nat × Cursor :=
  let digits := (c.rest.take count).takeWhile (isDigitOf 16)
  (if digits.length = count then some (readDigits 16 digits) else none, c.drop digits.length)

/-- A code point: four hexadecimal digits, or any number of them in braces. -/
def codePoint (c : Cursor) : Except LexError Char × Cursor :=
  if c.sees '{' then
    let (digits, c) := c.advance.takeWhile (isDigitOf 16)
    if c.sees '}' && !digits.isEmpty then (.ok (scalar (readDigits 16 digits)), c.advance)
    else (.error .invalidUnicodeEscape, c)
  else
    match hexDigits 4 c with
    | (some code, c) => (.ok (scalar code), c)
    | (none, c) => (.error .invalidHexEscape, c)

/-- The letters that stand for control characters. -/
def controlLetter? : Char → Option Char
  | 'n' => some '\n'
  | 'r' => some '\r'
  | 't' => some '\t'
  | 'b' => some '\x08'
  | 'f' => some '\x0c'
  | 'v' => some '\x0b'
  | _ => none

/-- What follows a backslash. -/
def escape (c : Cursor) : Except LexError (Option Char) × Cursor :=
  match c.rest with
  | [] => (.error .unterminatedEscape, c)
  | e :: _ =>
    let c := c.advance
    if e = '0' && !(c.peek.any Char.isDigit) then (.ok (some '\x00'), c)
    else if e = 'x' then
      match hexDigits 2 c with
      | (some code, c) => (.ok (some (scalar code)), c)
      | (none, c) => (.error .invalidHexEscape, c)
    else if e = 'u' then
      match codePoint c with
      | (.ok ch, c) => (.ok (some ch), c)
      | (.error cause, c) => (.error cause, c)
    else if e = '\r' then (.ok none, if c.sees '\n' then c.advance else c)
    else if isLineTerminator e then (.ok none, c)
    else (.ok (some ((controlLetter? e).getD e)), c)

theorem length_hexDigits (count : Nat) (c : Cursor) :
    (hexDigits count c).2.rest.length ≤ c.rest.length := c.length_drop _

theorem length_codePoint (c : Cursor) : (codePoint c).2.rest.length ≤ c.rest.length := by
  have h1 := c.length_advance
  have h2 := c.advance.length_takeWhile (isDigitOf 16)
  have h3 := (c.advance.takeWhile (isDigitOf 16)).2.length_advance
  have h4 := length_hexDigits 4 c
  unfold codePoint
  dsimp only
  split
  · split <;> dsimp only <;> omega
  · split <;> next h => rw [h] at h4; exact h4

theorem length_escape (c : Cursor) : (escape c).2.rest.length ≤ c.rest.length := by
  have h1 := c.length_advance
  have h2 := c.advance.length_advance
  have h3 := length_hexDigits 2 c.advance
  have h4 := length_codePoint c.advance
  unfold escape
  split
  · exact Nat.le_refl _
  · dsimp only
    split
    · exact h1
    split
    · split <;> next h => rw [h] at h3; exact Nat.le_trans h3 h1
    split
    · split <;> next h => rw [h] at h4; exact Nat.le_trans h4 h1
    split
    · dsimp only
      split <;> omega
    split <;> exact h1

end EsModule.Syntax
