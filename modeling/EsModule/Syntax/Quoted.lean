/-!
# Quoted strings

A string is printed between double quotes. The quote, the backslash and the characters that end a
line are escaped, and so is every other control character below the space, by its code in two
hexadecimal digits; all else stands for itself.
-/

namespace EsModule.Syntax

/-- A code below 256 in two hexadecimal digits. -/
def twoHexDigits (code : Nat) : List Char := [Nat.digitChar (code / 16), Nat.digitChar (code % 16)]

/-- How a character is written between double quotes. -/
def quotedChar (c : Char) : List Char :=
  if c = '"' then ['\\', '"']
  else if c = '\\' then ['\\', '\\']
  else if c = '\n' then ['\\', 'n']
  else if c = '\r' then ['\\', 'r']
  else if c = '\t' then ['\\', 't']
  else if c = '\u2028' then "\\u2028".toList
  else if c = '\u2029' then "\\u2029".toList
  else if c.toNat < 0x20 then ['\\', 'x'] ++ twoHexDigits c.toNat
  else [c]

/-- A text between double quotes. -/
def quoted (cs : List Char) : List Char := '"' :: (cs.flatMap quotedChar ++ ['"'])

/-- A string between double quotes. -/
def quote (s : String) : String := String.ofList (quoted s.toList)

end EsModule.Syntax
