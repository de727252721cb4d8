import EsModule.Syntax.Print.Statement
import EsModule.Text.Base64
import EsModule.Text.Position

/-!
# Source maps

A segment ties a place in the printed text to a place in the source. All its numbers count from
zero, and columns count UTF-16 code units. `encodeMappings` writes segments in the form of version 3
of source maps: a semicolon moves to the next printed line, a comma parts the segments of a line,
and each segment is four signed numbers, each the difference to the segment before. A number is
written in digits of five bits, the least significant ones first, with the sign in the lowest bit.

`generate` prints a tree and records where its parts come from. `segments` follows the printed
pieces from the start of the text: text moves the place on, and a mark gives a segment for the place
reached so far. Printed lines end at line feeds only.

The numbers of a segment have no bound. Kept in 32 bits, as programs keep them, they are the same as
long as neither text is as long as 4 GiB.
-/

namespace EsModule.SourceMap

open EsModule.Text

/-- A place in the printed text and the place in the source that it comes from. The numbers do not
wrap around at 32 bits. -/
structure Segment where
  /-- The line in the printed text. -/
  genLine : Nat
  /-- The column in the printed text. -/
  genColumn : Nat
  /-- The line in the source. -/
  srcLine : Nat
  /-- The column in the source. -/
  srcColumn : Nat
deriving DecidableEq

namespace Segment

/-- The segment that the first difference is taken to. -/
def zero : Segment := ⟨0, 0, 0, 0⟩

/-- Whether two segments stand at the same place of the printed text. -/
def samePlace (s t : Segment) : Bool := s.genLine == t.genLine && s.genColumn == t.genColumn

end Segment

/-- The segments without those at the same place as the one kept before them. -/
def distinctPlaces : List Segment → List Segment
  | [] => []
  | s :: rest => s :: go s rest
where
  /-- The segments behind `last` that are kept. -/
  go (last : Segment) : List Segment → List Segment
    | [] => []
    | s :: rest => if last.samePlace s then go last rest else s :: go s rest

/-- The groups of five bits of a number, the least significant ones first. All but the last have the
sixth bit set. -/
def vlqGroups (n : Nat) : List Nat :=
  if _h : n < 32 then [n] else (32 + n % 32) :: vlqGroups (n / 32)
termination_by n
decreasing_by omega

/-- A signed number with its sign in the lowest bit. -/
def zigzag (value : Int) : Nat :=
  if value < 0 then 2 * value.natAbs + 1 else 2 * value.natAbs

/-- A signed number in digits. -/
def encodeVlq (value : Int) : List Char := (vlqGroups (zigzag value)).map base64Digit

/-- The difference of two natural numbers in digits. -/
def encodeStep (before after : Nat) : List Char := encodeVlq ((after : Int) - (before : Int))

/-- The segments behind `last` in writing. -/
def encodeBehind (last : Segment) : List Segment → List Char
  | [] => []
  | s :: rest =>
    let newLines := s.genLine - last.genLine
    let (separator, column) :=
      if newLines = 0 then ([','], last.genColumn) else (List.replicate newLines ';', 0)
    separator ++ encodeStep column s.genColumn ++ encodeVlq 0 ++
      encodeStep last.srcLine s.srcLine ++ encodeStep last.srcColumn s.srcColumn ++
      encodeBehind s rest

/-- Segments in writing. In front of the first one there is no comma. -/
def encodeMappings (segments : List Segment) : List Char :=
  let text := encodeBehind .zero segments
  match text with
  | ',' :: rest => rest
  | text => text

end EsModule.SourceMap

namespace EsModule

/-- A source map of version 3. -/
structure SourceMap where
  /-- The version of the format. -/
  version : Nat
  /-- The name of the printed file. -/
  file : String
  /-- The names of the sources. -/
  sources : List String
  /-- The text of each source, if it is kept. -/
  sourcesContent : List (Option String)
  /-- The names that mappings refer to. -/
  names : List String
  /-- The segments in writing. -/
  mappings : String
deriving DecidableEq

namespace SourceMap

open Syntax Text

/-- A printed tree. -/
structure Generated where
  /-- The printed text. -/
  code : String
  /-- Where its parts come from. -/
  map : SourceMap

/-- The line and the column behind some text that starts at a line and a column. They are counted
without a bound. -/
def moveOver (line column : Nat) : List Char → Nat × Nat
  | [] => (line, column)
  | c :: cs =>
    if c = '\n' then moveOver (line + 1) 0 cs else moveOver line (column + utf16Size c) cs

/-- The segments of printed pieces, when the text in front of them ends at a line and a column. -/
def segmentsFrom (index : LineIndex) (line column : Nat) : Pieces → List Segment
  | [] => []
  | .text s :: rest =>
    let (line, column) := moveOver line column s.toList
    segmentsFrom index line column rest
  | .mark offset :: rest =>
    let (srcLine, srcColumn) := index.locate offset
    ⟨line, column, srcLine, srcColumn⟩ :: segmentsFrom index line column rest

/-- The segments of printed pieces, at most one for each place. -/
def segments (source : List Char) (pieces : Pieces) : List Segment :=
  distinctPlaces (segmentsFrom (.ofSource source) 0 0 pieces)

/-- Prints a tree that was read from `source` in the file `file`. -/
def generate (root : Node) (source file : String) : Generated :=
  let pieces := root.printed
  { code := pieces.text
    map :=
      { version := 3, file, sources := [file], sourcesContent := [some source], names := []
        mappings := String.ofList (encodeMappings (segments source.toList pieces)) } }

end SourceMap

end EsModule
