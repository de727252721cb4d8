/-!
# Byte offsets into source text

Source text is a list of characters, and a place in it is the number of bytes that the text before
the place takes in UTF-8. `byteSize` measures text, `before` finds the text in front of a place, and
a `Cursor` is a place together with the text that is still to be read.

Offsets have no bound: they are those of a machine on which the whole source fits into memory.

The two halves of a cursor are tied by `Cursor.At`: some text was read, and the offset is its size.
Every operation below keeps that tie.
-/

namespace EsModule.Text

/-- The number of bytes that a text takes in UTF-8. -/
def byteSize : List Char → Nat
  | [] => 0
  | c :: cs => c.utf8Size + byteSize cs

@[simp] theorem byteSize_nil : byteSize [] = 0 := rfl

@[simp] theorem byteSize_cons (c : Char) (cs : List Char) :
    byteSize (c :: cs) = c.utf8Size + byteSize cs := rfl

@[simp] theorem byteSize_append (xs ys : List Char) :
    byteSize (xs ++ ys) = byteSize xs + byteSize ys := by
  induction xs with
  | nil => simp
  | cons c cs ih => simp [ih, Nat.add_assoc]

/-- The longest text at the front of `cs` that takes at most `offset` bytes. An offset inside a
character stands for the start of that character, and one past the end for the end. -/
def before : List Char → Nat → List Char
  | [], _ => []
  | c :: cs, offset =>
    if c.utf8Size ≤ offset then c :: before cs (offset - c.utf8Size) else []

/-- What is left of `cs` behind `before cs offset`. -/
def after : List Char → Nat → List Char
  | [], _ => []
  | c :: cs, offset => if c.utf8Size ≤ offset then after cs (offset - c.utf8Size) else c :: cs

theorem before_append_after (cs : List Char) (offset : Nat) :
    before cs offset ++ after cs offset = cs := by
  induction cs generalizing offset with
  | nil => rfl
  | cons c cs ih =>
    unfold before after
    split
    · simp [ih]
    · rfl

/-- A place in a text: how many bytes were read, and the text still to be read. -/
structure Cursor where
  /-- The byte offset of the place. -/
  pos : Nat
  /-- The text behind the place. -/
  rest : List Char

namespace Cursor

/-- The place in front of the whole text. -/
def start (source : List Char) : Cursor := ⟨0, source⟩

/-- Says that the cursor is a place in `source`. -/
def At (c : Cursor) (source : List Char) : Prop :=
  ∃ read, source = read ++ c.rest ∧ c.pos = byteSize read

/-- The place in `source` at a byte offset, or its end if the offset lies behind it. -/
def seek (source : List Char) (offset : Nat) : Cursor :=
  ⟨byteSize (before source offset), after source offset⟩

/-- The character behind the place. -/
def peek (c : Cursor) : Option Char := c.rest.head?

/-- Whether `ch` stands behind the place. -/
def sees (c : Cursor) (ch : Char) : Bool := c.rest.head? == some ch

/-- Moves over one character, if there is one. -/
def advance (c : Cursor) : Cursor :=
  match c.rest with
  | [] => c
  | ch :: rest => ⟨c.pos + ch.utf8Size, rest⟩

/-- Moves over `n` characters, or to the end if there are fewer. -/
def drop (c : Cursor) (n : Nat) : Cursor := ⟨c.pos + byteSize (c.rest.take n), c.rest.drop n⟩

/-- Moves over the longest text all of whose characters satisfy `p`, and gives that text too. -/
def takeWhile (c : Cursor) (p : Char → Bool) : List Char × Cursor :=
  let taken := c.rest.takeWhile p
  (taken, ⟨c.pos + byteSize taken, c.rest.dropWhile p⟩)

/-- Moves over the longest text all of whose characters satisfy `p`. -/
def skipWhile (c : Cursor) (p : Char → Bool) : Cursor := (c.takeWhile p).2

/-- The text from the place up to a byte offset. -/
def textTo (c : Cursor) (offset : Nat) : List Char := before c.rest (offset - c.pos)

theorem start_at (source : List Char) : (start source).At source := ⟨[], rfl, rfl⟩

theorem At.takeWhile {c : Cursor} {source : List Char} (h : c.At source) (p : Char → Bool) :
    (c.takeWhile p).2.At source := by
  obtain ⟨read, hs, hp⟩ := h
  refine ⟨read ++ (c.takeWhile p).1, ?_, by simp [Cursor.takeWhile, hp]⟩
  simp [Cursor.takeWhile, hs]

theorem length_advance (c : Cursor) : c.advance.rest.length ≤ c.rest.length := by
  unfold advance
  split
  · exact Nat.le_refl _
  · next h => simp [h]

theorem length_advance_lt {c : Cursor} {ch : Char} {rest : List Char} (h : c.rest = ch :: rest) :
    c.advance.rest.length < c.rest.length := by
  simp [advance, h]

theorem length_drop (c : Cursor) (n : Nat) : (c.drop n).rest.length ≤ c.rest.length := by
  simp [drop]

theorem length_takeWhile (c : Cursor) (p : Char → Bool) :
    (c.takeWhile p).2.rest.length ≤ c.rest.length :=
  (List.dropWhile_suffix p).length_le

end Cursor

end EsModule.Text
