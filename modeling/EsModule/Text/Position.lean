import EsModule.Text.Offset

/-!
# Lines and columns

A byte offset is shown to a reader as a line and a column, and there are two ways to count.

A diagnostic counts from one, takes a column per character, and lets only a line feed end a line:
`lineColumn`. A source map counts from zero, takes a column per UTF-16 code unit, and lets every
line end of the language end a line, a carriage return with a line feed behind it being one:
`LineIndex.locate`, which finds the line by bisection in a table that is built once per source.

Lines and columns are natural numbers. A program that keeps those of a source map in 32 bits agrees
for sources of less than 4 GiB; how the numbers of longer ones wrap around is left out.
-/

namespace EsModule.Text

/-- The line and the column of an offset, for a diagnostic. An offset inside a character counts as
that character's start, and one behind the text as its end. -/
def lineColumn (source : List Char) (offset : Nat) : Nat × Nat :=
  let read := before source offset
  (read.count '\n' + 1, (read.reverse.takeWhile (· ≠ '\n')).length + 1)

/-- The number of UTF-16 code units of a character. -/
def utf16Size (c : Char) : Nat := if c.toNat < 0x10000 then 1 else 2

/-- The number of UTF-16 code units of a text. -/
def utf16Length (cs : List Char) : Nat := cs.foldl (fun n c => n + utf16Size c) 0

/-- The starts of the lines behind the first one, when `pos` bytes of the source come before `cs`:
each with the text from there on. -/
def lineStarts (pos : Nat) : List Char → List (Nat × List Char)
  | [] => []
  | '\r' :: '\n' :: cs => (pos + 2, cs) :: lineStarts (pos + 2) cs
  | c :: cs =>
    let next := pos + c.utf8Size
    if c == '\r' || c == '\n' || c == '\u2028' || c == '\u2029' then
      (next, cs) :: lineStarts next cs
    else lineStarts next cs

/-- The lines of a source: the offset where each starts, and the text from there on. -/
structure LineIndex where
  /-- The text of the source. -/
  source : List Char
  /-- The lines behind the first one, in order. -/
  later : Array (Nat × List Char)

namespace LineIndex

/-- The lines of a source. -/
def ofSource (source : List Char) : LineIndex := ⟨source, (lineStarts 0 source).toArray⟩

/-- How many of the later lines with numbers from `lo` up to `hi` start at or before an offset, and
all those below `lo` with them. The starts increase, so halving the range finds it. -/
def countFrom (index : LineIndex) (offset lo hi : Nat) : Nat :=
  if _h : lo < hi then
    let mid := (lo + hi) / 2
    match index.later[mid]? with
    | some (start, _) =>
      if start ≤ offset then countFrom index offset (mid + 1) hi
      else countFrom index offset lo mid
    | none => countFrom index offset lo mid
  else lo
termination_by hi - lo
decreasing_by all_goals omega

/-- The line of an offset, counted from zero. -/
def line (index : LineIndex) (offset : Nat) : Nat := index.countFrom offset 0 index.later.size

/-- The start of a line, and the text from there on. Line zero starts with the source. -/
def lineAt (index : LineIndex) : Nat → Nat × List Char
  | 0 => (0, index.source)
  | n + 1 => index.later[n]?.getD (0, index.source)

/-- The line and the column of an offset, for a source map, without a bound of 32 bits. -/
def locate (index : LineIndex) (offset : Nat) : Nat × Nat :=
  let line := index.line offset
  let (start, text) := index.lineAt line
  (line, utf16Length (before text (offset - start)))

end LineIndex

end EsModule.Text
