import EsModule.Text.Composition.Table

/-!
# The composed form of texts

One text can be spelled in several ways, with an accented letter as one character or as two. The
composed form is the same for all of these spellings: the text is taken apart as far as possible,
the marks behind each letter are sorted by their combining class, and then each letter is put
together with the marks behind it wherever one character stands for both.

The syllables of Hangul are composed by arithmetic: their code points count the leading consonants,
the vowels and the trailing consonants.

This is Normalization Form C of the Unicode Standard for whole texts, with the tables of version 17.
The other three forms, and texts that come piece by piece, are left out.
-/

namespace EsModule.Text.Composition

/-! ## Hangul -/

/-- The first syllable, the first leading consonant, the first vowel, and the code point in front of
the first trailing consonant. -/
def firstSyllable : Nat := 0xac00
@[inherit_doc firstSyllable] def firstLeading : Nat := 0x1100
@[inherit_doc firstSyllable] def firstVowel : Nat := 0x1161
@[inherit_doc firstSyllable] def beforeTrailing : Nat := 0x11a7

/-- How many leading consonants, vowels and trailing consonants there are. No trailing consonant
counts as one. -/
def leadingCount : Nat := 19
@[inherit_doc leadingCount] def vowelCount : Nat := 21
@[inherit_doc leadingCount] def trailingCount : Nat := 28

/-- The parts of a syllable. -/
def syllableParts? (code : Nat) : Option (List Nat) :=
  let n := code - firstSyllable
  if code < firstSyllable ∨ leadingCount * vowelCount * trailingCount ≤ n then none
  else
    let front := [firstLeading + n / (vowelCount * trailingCount),
      firstVowel + n / trailingCount % vowelCount]
    some (if n % trailingCount = 0 then front else front ++ [beforeTrailing + n % trailingCount])

/-- The syllable of a leading consonant and a vowel, or of a syllable without a trailing consonant
and one. -/
def syllableOf? (first second : Nat) : Option Nat :=
  let vowel := second - firstVowel
  let trailing := second - beforeTrailing
  let n := first - firstSyllable
  if firstLeading ≤ first ∧ first < firstLeading + leadingCount ∧ firstVowel ≤ second ∧
      vowel < vowelCount then
    some (firstSyllable + ((first - firstLeading) * vowelCount + vowel) * trailingCount)
  else if firstSyllable ≤ first ∧ n < leadingCount * vowelCount * trailingCount ∧
      n % trailingCount = 0 ∧ beforeTrailing < second ∧ trailing < trailingCount then
    some (first + trailing)
  else none

/-! ## Taking apart -/

/-- What a character is taken apart into by one step. -/
def splitOnce (c : Char) : List Char :=
  let code := c.toNat
  let row? (table : Array (List Nat)) : Option (List Nat) :=
    (table.find? (·.head? = some code)).map (·.drop 1)
  if code < 0xa0 then [c]
  else match syllableParts? code <|> row? composedRows <|> row? replacedRows with
    | some parts => parts.map Char.ofNat
    | none => [c]

/-- How many steps take every character apart. -/
def splitDepth : Nat := 4

/-- A text taken apart. -/
def decompose (cs : List Char) : List Char := Nat.repeat (List.flatMap splitOnce) splitDepth cs

/-! ## Sorting marks -/

/-- The combining class of a character. -/
def combiningClass (c : Char) : Nat :=
  combiningRows.foldl (fun found row =>
    match row with
    | [start, group] => if start ≤ c.toNat then group else found
    | _ => found) 0

/-- Puts a character in front of a sorted text, behind the marks with a smaller class. -/
def insertMark (c : Char) : List Char → List Char
  | [] => [c]
  | d :: ds =>
    if 0 < combiningClass d ∧ combiningClass d < combiningClass c then d :: insertMark c ds
    else c :: d :: ds

/-- A text in which the marks behind each character are sorted. -/
def sortMarks (cs : List Char) : List Char := cs.foldr insertMark []

/-! ## Putting together -/

/-- The character that stands for two. -/
def compose? (first second : Char) : Option Char :=
  let pair := [first.toNat, second.toNat]
  let composed := (composedRows.find? (·.drop 1 = pair)).bind List.head?
  (syllableOf? first.toNat second.toNat <|> composed).map Char.ofNat

/-- What is put together so far. -/
structure Composer where
  /-- The text in front of the last character that is no mark. -/
  done : List Char
  /-- The last character that is no mark. -/
  base : Option Char
  /-- The marks behind it that are not part of it. -/
  marks : List Char

/-- All characters, put together or not. -/
def Composer.text (p : Composer) : List Char := p.done ++ p.base.toList ++ p.marks

/-- Adds a character. It is not put together with the base if a mark of its class, or of a greater
one, stands between the two. -/
def Composer.add (p : Composer) (c : Char) : Composer :=
  let group := combiningClass c
  let isBlocked := p.marks.getLast?.any fun m => group ≤ combiningClass m
  match (if isBlocked then none else p.base.bind (compose? · c)) with
  | some base => { p with base := some base }
  | none =>
    if group = 0 then ⟨p.text, some c, []⟩ else { p with marks := p.marks ++ [c] }

/-- The composed form of a text. -/
def composed (cs : List Char) : List Char :=
  ((sortMarks (decompose cs)).foldl Composer.add ⟨[], none, []⟩).text

end EsModule.Text.Composition
