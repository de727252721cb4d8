/-!
# Blanks and cuts

Between tokens there may be blanks and line terminators. Four characters end a line in a program:
line feed, carriage return, and the two separators U+2028 and U+2029. A blank is any other
character of the Unicode class `White_Space`, which has not changed since version 6.3, or the byte
order mark U+FEFF.

`splitAtEach` cuts a text at single characters and keeps what lies between them.
-/

namespace EsModule.Text

/-- Whether a character ends a line of a program. -/
def isLineTerminator (c : Char) : Bool :=
  c == '\n' || c == '\r' || c == '\u2028' || c == '\u2029'

/-- The Unicode class `White_Space`. -/
def isWhiteSpace (c : Char) : Bool :=
  let n := c.toNat
  (9 ≤ n && n ≤ 13) || n == 0x20 || n == 0x85 || n == 0xa0 || n == 0x1680 ||
    (0x2000 ≤ n && n ≤ 0x200a) || n == 0x2028 || n == 0x2029 || n == 0x202f || n == 0x205f ||
    n == 0x3000

/-- Whether a character separates tokens without ending a line. -/
def isBlank (c : Char) : Bool :=
  (isWhiteSpace c && !isLineTerminator c) || c == '\ufeff'

/-- A text cut at each character of a set. There is one piece more than cuts. -/
def splitAtEach (isCut : Char → Bool) : List Char → List (List Char)
  | [] => [[]]
  | c :: cs =>
    match splitAtEach isCut cs with
    | [] => [[c]]
    | piece :: pieces => if isCut c then [] :: piece :: pieces else (c :: piece) :: pieces

end EsModule.Text
