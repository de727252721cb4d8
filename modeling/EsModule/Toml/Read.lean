import EsModule.Number.Binary64
import EsModule.Number.Decimal

/-!
# Reading a TOML document

A document is a table. Tables come into being in four ways, and the way decides who may add to them
later: a header may add to what another header implied, a dotted key to what a dotted key made, and
nobody to a table that stands in braces. `insertAt?` adds a value, and `openTable?` and
`openElement?` make the tables that headers name; all three fail where the rules forbid it.

The readers of strings, numbers and moments take text and give what they read together with the text
behind it. A string says itself where it ends. A number, a truth value or a moment ends where a value
has to end, so these are read from a whole piece of text.

The text of a document is a list of lines, each of which holds an entry, a header or nothing, and may
end in a comment. An array may go over several lines, a table in braces may not. What a line says
goes into the document by the rules for tables. `read?` gives the table that a document is, or
nothing for a text that is none.

The documents are those of TOML 1.0, nested up to `maxDepth`. It stops where a configuration has no
use for more: a moment is checked but kept as its text, the place of a fault is not told, and
documents are not written.
-/

namespace EsModule.Toml

open EsModule.Number

/-! ## Tables -/

/-- How a table came into being. -/
inductive Origin where
  /-- A header names it. -/
  | header
  /-- A header names a table inside of it. -/
  | implied
  /-- A dotted key goes through it. -/
  | dotted
  /-- It stands in braces. -/
  | braces
deriving DecidableEq

/-- A value. -/
inductive Value where
  | string (s : String)
  | integer (n : Int)
  | float (x : Binary64)
  | boolean (b : Bool)
  /-- A date, a time, or both, as it is written. -/
  | moment (text : String)
  | array (items : List Value)
  | table (origin : Origin) (entries : List (String × Value))
  /-- The tables that headers in double brackets name. -/
  | tables (elements : List (List (String × Value)))

/-- What a table holds. -/
abbrev Entries : Type := List (String × Value)

/-- The value under a key. -/
def Entries.get? (entries : Entries) (key : String) : Option Value := List.lookup key entries

/-- Puts a value under a key that is there, or behind all others. -/
def Entries.set (entries : Entries) (key : String) (v : Value) : Entries :=
  if entries.any (·.1 = key) then
    entries.map fun e => if e.1 = key then (key, v) else e
  else entries ++ [(key, v)]

/-- A table that is being changed. -/
structure Place where
  /-- How it came into being. -/
  origin : Origin
  /-- What it holds. -/
  entries : Entries

/-- Changes the table at a path. Tables that are missing on the way come into being as `made`. A way
of dotted keys goes through no table that a header names. -/
def changeAt? (made : Origin) (change : Place → Option Place) : List String → Place → Option Place
  | [], place => change place
  | key :: path, place =>
    match place.entries.get? key with
    | none => do
      let inner ← changeAt? made change path ⟨made, []⟩
      return { place with entries := place.entries.set key (.table inner.origin inner.entries) }
    | some (.table origin entries) =>
      if origin = .braces ∨ (made = .dotted ∧ origin = .header) then none
      else do
        let inner ← changeAt? made change path ⟨origin, entries⟩
        return { place with entries := place.entries.set key (.table inner.origin inner.entries) }
    | some (.tables elements) => do
      let inner ← changeAt? made change path ⟨.header, ← elements.getLast?⟩
      return { place with
        entries := place.entries.set key (.tables (elements.dropLast ++ [inner.entries])) }
    | some _ => none

/-- Adds a value under a new key. Behind a dotted key it goes only into a table that dotted keys
made, and without one only into any other table. -/
def addKey? (behindDots : Bool) (key : String) (v : Value) (place : Place) : Option Place :=
  if (place.origin = .dotted) ↔ behindDots then
    match place.entries.get? key with
    | none => some { place with entries := place.entries.set key v }
    | some _ => none
  else none

/-- Adds a value under a dotted key, which has at least one part. -/
def insertAt? (keys : List String) (v : Value) (place : Place) : Option Place := do
  let key ← keys.getLast?
  changeAt? .dotted (addKey? (1 < keys.length) key v) keys.dropLast place

/-- Makes a table of a key that is new or that other headers implied. -/
def headTable? (key : String) (place : Place) : Option Place :=
  match place.entries.get? key with
  | none => some { place with entries := place.entries.set key (.table .header []) }
  | some (.table .implied entries) =>
    some { place with entries := place.entries.set key (.table .header entries) }
  | some _ => none

/-- Adds a table to the tables under a key. -/
def headElement? (key : String) (place : Place) : Option Place :=
  match place.entries.get? key with
  | none => some { place with entries := place.entries.set key (.tables [[]]) }
  | some (.tables elements) =>
    some { place with entries := place.entries.set key (.tables (elements ++ [[]])) }
  | some _ => none

/-- What a line of a document says. -/
inductive Line where
  /-- A value under a dotted key. -/
  | entry (keys : List String) (v : Value)
  /-- A header in brackets. -/
  | table (keys : List String)
  /-- A header in double brackets. -/
  | element (keys : List String)

/-- A document that is being read. -/
structure Document where
  /-- The whole table. -/
  root : Place
  /-- The path of the table that the last header names. -/
  current : List String

/-- The document without any lines. -/
def Document.empty : Document := ⟨⟨.header, []⟩, []⟩

/-- Takes in one line. -/
def Document.add? (d : Document) : Line → Option Document
  | .entry keys v => do
    return { d with root := ← changeAt? .implied (insertAt? keys v) d.current d.root }
  | .table keys => do
    let root ← changeAt? .implied (headTable? (← keys.getLast?)) keys.dropLast d.root
    return ⟨root, keys⟩
  | .element keys => do
    let root ← changeAt? .implied (headElement? (← keys.getLast?)) keys.dropLast d.root
    return ⟨root, keys⟩

/-! ## Characters -/

/-- Whether a character is a blank inside of a line. -/
def isBlank (c : Char) : Bool := c == ' ' || c == '\t'

/-- Whether a character may stand in a comment or in a string without quotes. -/
def isPlain (c : Char) : Bool := c == '\t' || (0x20 ≤ c.toNat && c.toNat ≠ 0x7f)

/-- The text behind blanks. -/
def skipBlanks (cs : List Char) : List Char := cs.dropWhile isBlank

/-- The text behind one line end. -/
def lineEnd? : List Char → Option (List Char)
  | '\n' :: cs | '\r' :: '\n' :: cs => some cs
  | _ => none

/-! ## Strings -/

/-- The scalar value that some hexadecimal digits stand for. -/
def scalarOf? (digits : List Char) : Option Char :=
  let n := readDigits 16 digits
  if digits.all (isDigitOf 16) ∧ n.isValidChar then some (Char.ofNat n) else none

/-- The character behind a backslash and the text behind that. -/
def escape? : List Char → Option (Char × List Char)
  | 'b' :: cs => some ('\x08', cs)
  | 't' :: cs => some ('\t', cs)
  | 'n' :: cs => some ('\n', cs)
  | 'f' :: cs => some ('\x0c', cs)
  | 'r' :: cs => some ('\r', cs)
  | '"' :: cs => some ('"', cs)
  | '\\' :: cs => some ('\\', cs)
  | 'u' :: cs =>
    if cs.length < 4 then none else (scalarOf? (cs.take 4)).map (·, cs.drop 4)
  | 'U' :: cs =>
    if cs.length < 8 then none else (scalarOf? (cs.take 8)).map (·, cs.drop 8)
  | _ => none

/-- The text behind blanks and line ends. -/
def skipLines : List Char → List Char
  | '\r' :: '\n' :: cs => skipLines cs
  | c :: cs => if isBlank c || c == '\n' then skipLines cs else c :: cs
  | [] => []

/-- Whether a backslash in front of some text continues the line: only blanks follow on it. -/
def continuesLine (cs : List Char) : Bool := (lineEnd? (skipBlanks cs)).isSome

/-- The kinds of strings: whether backslashes count, and whether the string may have line ends. -/
structure StringKind where
  /-- The quotation mark. -/
  quote : Char
  /-- Whether it has three quotation marks at each end, and may have line ends. -/
  isLong : Bool

/-- The rest of a string and the text behind it. At most two quotation marks may stand right in
front of the three that end a long string. -/
def stringRest (kind : StringKind) : Nat → List Char → Option (List Char × List Char)
  | 0, _ | _, [] => none
  | fuel + 1, c :: cs =>
    if c = kind.quote then
      if !kind.isLong then some ([], cs)
      else
        let quotes := (c :: cs).takeWhile (· == kind.quote)
        let behind := (c :: cs).drop quotes.length
        if quotes.length < 3 then
          (stringRest kind fuel behind).map fun (text, rest) => (quotes ++ text, rest)
        else if quotes.length ≤ 5 then some (quotes.drop 3, behind)
        else none
    else if c = '\\' ∧ kind.quote = '"' then
      if kind.isLong ∧ continuesLine cs then stringRest kind fuel (skipLines cs)
      else do
        let (c, cs) ← escape? cs
        (stringRest kind fuel cs).map fun (text, rest) => (c :: text, rest)
    else
      match lineEnd? (c :: cs) with
      | some cs =>
        if kind.isLong then (stringRest kind fuel cs).map fun (text, rest) => ('\n' :: text, rest)
        else none
      | none =>
        if isPlain c then (stringRest kind fuel cs).map fun (text, rest) => (c :: text, rest)
        else none

/-- A string and the text behind it. A line end right behind three opening marks does not count. -/
def string? (cs : List Char) : Option (String × List Char) :=
  let read (kind : StringKind) (cs : List Char) : Option (String × List Char) :=
    (stringRest kind (cs.length + 1) cs).map fun (text, rest) => (String.ofList text, rest)
  match cs with
  | '"' :: '"' :: '"' :: cs => read ⟨'"', true⟩ ((lineEnd? cs).getD cs)
  | '\'' :: '\'' :: '\'' :: cs => read ⟨'\'', true⟩ ((lineEnd? cs).getD cs)
  | '"' :: cs => read ⟨'"', false⟩ cs
  | '\'' :: cs => read ⟨'\'', false⟩ cs
  | _ => none

/-- A string that fits on a line, and the text behind it. -/
def shortString? (cs : List Char) : Option (String × List Char) :=
  match cs with
  | '"' :: '"' :: '"' :: _ | '\'' :: '\'' :: '\'' :: _ => none
  | cs => string? cs

/-! ## Numbers -/

/-- The digits that some text consists of: an underscore may stand between two of them. -/
def digits? (radix : Nat) (cs : List Char) : Option (List Char) :=
  let digits := cs.filter (· ≠ '_')
  let parted := (cs.zip (cs.drop 1)).all fun (a, b) => !(a == '_' && b == '_')
  if !cs.isEmpty ∧ digits.all (isDigitOf radix) ∧ parted ∧ cs.head? ≠ some '_' ∧
    cs.getLast? ≠ some '_' then some digits else none

/-- Whether digits have no zero in front. -/
def isUnpadded (digits : List Char) : Bool := digits.length == 1 || digits.head? != some '0'

/-- Whether an integer takes at most 64 bits. -/
def fitsInteger (n : Int) : Bool := -(Int.ofNat (Nat.pow 2 63)) ≤ n && n < Int.ofNat (Nat.pow 2 63)

/-- A sign, and the text behind it. -/
def sign (cs : List Char) : Bool × List Char :=
  match cs with
  | '-' :: cs => (true, cs)
  | '+' :: cs => (false, cs)
  | cs => (false, cs)

/-- The integer that a piece of text is. -/
def integer? (cs : List Char) : Option Int :=
  let number (radix : Nat) (cs : List Char) : Option Int :=
    (digits? radix cs).map fun digits => (readDigits radix digits : Int)
  let value : Option Int :=
    match cs with
    | '0' :: 'x' :: cs => number 16 cs
    | '0' :: 'o' :: cs => number 8 cs
    | '0' :: 'b' :: cs => number 2 cs
    | cs => do
      let (negative, cs) := sign cs
      let digits ← (digits? 10 cs).filter isUnpadded
      let n : Int := readDigits 10 digits
      return if negative then -n else n
  value.filter fitsInteger

/-- The number that a piece of text with a point or an exponent is. One that is too large has to
have a minus sign; it is infinite. -/
def float? (cs : List Char) : Option Binary64 := do
  let (negative, cs) := sign cs
  let signed (x : Binary64) : Binary64 := if negative then x.neg else x
  if cs = "inf".toList then return signed .infinity
  if cs = "nan".toList then return signed (.ofIndex false (Binary64.infinityIndex + Nat.pow 2 51))
  let isMark (c : Char) : Bool := c == 'e' || c == 'E'
  let number := cs.takeWhile fun c => !isMark c
  let exponent := (cs.drop number.length).drop 1
  let whole ← (digits? 10 (number.takeWhile (· ≠ '.'))).filter isUnpadded
  let fraction ← match number.dropWhile (· ≠ '.') with
    | [] => some []
    | _ :: fraction => digits? 10 fraction
  let power ← if number.length = cs.length then some 0 else do
    let (negative, exponent) := sign exponent
    let n : Int := readDigits 10 (← digits? 10 exponent)
    some (if negative then -n else n)
  if number.length = cs.length ∧ ¬ number.contains '.' then none
  let x := Binary64.ofDecimal ⟨readDigits 10 (whole ++ fraction), power - fraction.length⟩
  if x.isInfinite ∧ !negative then none else return signed x

/-! ## Moments -/

/-- The number that exactly so many decimal digits in front of some text are, and the text behind
them. -/
def fixedNumber? (count : Nat) (cs : List Char) : Option (Nat × List Char) :=
  let digits := cs.take count
  if digits.length = count ∧ digits.all Char.isDigit then
    some (readDigits 10 digits, cs.drop count)
  else none

/-- The text behind a character that has to be there. -/
def expect? (c : Char) : List Char → Option (List Char)
  | d :: cs => if d = c then some cs else none
  | [] => none

/-- How many days a month has. -/
def daysOf (year month : Nat) : Nat :=
  if month = 2 then
    if year % 4 = 0 ∧ (year % 100 ≠ 0 ∨ year % 400 = 0) then 29 else 28
  else if month ∈ [4, 6, 9, 11] then 30
  else 31

/-- The text behind a date. -/
def date? (cs : List Char) : Option (List Char) := do
  let (year, cs) ← fixedNumber? 4 cs
  let (month, cs) ← fixedNumber? 2 (← expect? '-' cs)
  let (day, cs) ← fixedNumber? 2 (← expect? '-' cs)
  if 1 ≤ month ∧ month ≤ 12 ∧ 1 ≤ day ∧ day ≤ daysOf year month then some cs else none

/-- The text behind a time. A second may be a leap second, and may have a fraction. -/
def time? (cs : List Char) : Option (List Char) := do
  let (hour, cs) ← fixedNumber? 2 cs
  let (minute, cs) ← fixedNumber? 2 (← expect? ':' cs)
  let (second, cs) ← fixedNumber? 2 (← expect? ':' cs)
  if 23 < hour ∨ 59 < minute ∨ 60 < second then none
  else
    match cs with
    | '.' :: cs =>
      if (cs.takeWhile Char.isDigit).isEmpty then none else some (cs.dropWhile Char.isDigit)
    | cs => some cs

/-- The text behind an offset from universal time. -/
def offset? : List Char → Option (List Char)
  | 'Z' :: cs | 'z' :: cs => some cs
  | c :: cs => do
    guard (c == '+' || c == '-')
    let (hour, cs) ← fixedNumber? 2 cs
    let (minute, cs) ← fixedNumber? 2 (← expect? ':' cs)
    if 23 < hour ∨ 59 < minute then none else some cs
  | [] => none

/-- Whether a piece of text is a date, a time, or a date and a time. -/
def isMoment (cs : List Char) : Bool :=
  match date? cs with
  | some [] => true
  | some (mark :: cs) =>
    (mark == 'T' || mark == 't' || mark == ' ') &&
      match time? cs with
      | some [] => true
      | some cs => offset? cs == some []
      | none => false
  | none => time? cs == some []

/-! ## Pieces -/

/-- Whether a character may stand in a number, a truth value or a moment. -/
def isPieceChar (c : Char) : Bool := c.isAlphanum || "+-_.:".toList.contains c

/-- The piece of text in front of some text. A date and a time may be parted by one blank. -/
def piece (cs : List Char) : List Char :=
  let front := cs.takeWhile isPieceChar
  match date? front, cs.drop front.length with
  | some [], ' ' :: behind =>
    if (behind.head?.map Char.isDigit).getD false then
      front ++ ' ' :: behind.takeWhile isPieceChar
    else front
  | _, _ => front

/-- The number, truth value or moment that a piece of text is. -/
def pieceValue? (cs : List Char) : Option Value :=
  if cs = "true".toList then some (.boolean true)
  else if cs = "false".toList then some (.boolean false)
  else if isMoment cs then some (.moment (String.ofList cs))
  else (integer? cs).map .integer <|> (float? cs).map .float

/-! ## Keys -/

/-- Whether a character may stand in a key without quotes. -/
def isKeyChar (c : Char) : Bool := c.isAlphanum || c == '_' || c == '-'

/-- One part of a dotted key, and the text behind it. -/
def keyPart? (cs : List Char) : Option (String × List Char) :=
  let bare := cs.takeWhile isKeyChar
  if bare.isEmpty then shortString? cs else some (String.ofList bare, cs.drop bare.length)

/-- The parts of a dotted key, and the text behind it and its blanks. -/
def keys? : Nat → List Char → Option (List String × List Char)
  | 0, _ => none
  | fuel + 1, cs => do
    let (key, cs) ← keyPart? (skipBlanks cs)
    match skipBlanks cs with
    | '.' :: cs => do
      let (keys, cs) ← keys? fuel cs
      return (key :: keys, cs)
    | cs => return ([key], cs)

/-- How many parts a dotted key may have, and how deep arrays and tables in braces may be nested. -/
def maxDepth : Nat := 79

/-- A dotted key, and the text behind it and its blanks. -/
def dottedKey? (cs : List Char) : Option (List String × List Char) :=
  (keys? (cs.length + 1) cs).filter (·.1.length ≤ maxDepth)

/-! ## Blanks and comments -/

/-- The text behind a comment, if one is there. -/
def skipComment : List Char → List Char
  | '#' :: cs => cs.dropWhile isPlain
  | cs => cs

/-- The text behind blanks, line ends and comments. -/
def skipAll : Nat → List Char → List Char
  | 0, cs => cs
  | fuel + 1, cs =>
    let behind := skipComment (skipBlanks cs)
    match lineEnd? behind with
    | some cs => skipAll fuel cs
    | none => behind

/-- The text behind blanks, line ends and comments inside of an array. -/
def skipInArray (cs : List Char) : List Char := skipAll cs.length cs

/-! ## Values -/

mutual

/-- A value, and the text behind it, with so many steps and levels left. -/
def value? : Nat → Nat → List Char → Option (Value × List Char)
  | 0, _, _ => none
  | fuel + 1, depth, cs =>
    match cs with
    | '"' :: _ | '\'' :: _ => (string? cs).map fun (s, rest) => (.string s, rest)
    | '[' :: cs =>
      if depth = 0 then none
      else (items? fuel (depth - 1) cs).map fun (items, rest) => (.array items, rest)
    | '\x7b' :: cs =>
      if depth = 0 then none
      else
        match skipBlanks cs with
        | '\x7d' :: rest => some (.table .braces [], rest)
        | cs => (members? fuel (depth - 1) ⟨.braces, []⟩ cs).map fun (place, rest) =>
            (.table .braces place.entries, rest)
    | cs => do
      let text := piece cs
      return (← pieceValue? text, cs.drop text.length)

/-- The items of an array, and the text behind its bracket. -/
def items? : Nat → Nat → List Char → Option (List Value × List Char)
  | 0, _, _ => none
  | fuel + 1, depth, cs =>
    match skipInArray cs with
    | ']' :: rest => some ([], rest)
    | cs => do
      let (v, cs) ← value? fuel depth cs
      match skipInArray cs with
      | ',' :: cs => do
        let (vs, rest) ← items? fuel depth cs
        return (v :: vs, rest)
      | ']' :: rest => return ([v], rest)
      | _ => none

/-- The members of a table in braces, and the text behind its brace. -/
def members? : Nat → Nat → Place → List Char → Option (Place × List Char)
  | 0, _, _, _ => none
  | fuel + 1, depth, place, cs => do
    let (keys, cs) ← dottedKey? cs
    let (v, cs) ← value? fuel depth (skipBlanks (← expect? '=' cs))
    let place ← insertAt? keys v place
    match skipBlanks cs with
    | ',' :: cs => members? fuel depth place cs
    | '\x7d' :: rest => return (place, rest)
    | _ => none

end

/-! ## Lines -/

/-- What a line says, and the text behind that. -/
def line? (cs : List Char) : Option (Line × List Char) :=
  match cs with
  | '[' :: '[' :: cs => do
    let (keys, cs) ← dottedKey? cs
    return (.element keys, ← expect? ']' (← expect? ']' cs))
  | '[' :: cs => do
    let (keys, cs) ← dottedKey? cs
    return (.table keys, ← expect? ']' cs)
  | cs => do
    let (keys, rest) ← dottedKey? cs
    let (v, rest) ← value? (2 * cs.length + 2) maxDepth (skipBlanks (← expect? '=' rest))
    return (.entry keys v, rest)

/-- The document that the lines of some text give, behind the lines before them. -/
def lines? : Nat → Document → List Char → Option Document
  | 0, _, _ => none
  | fuel + 1, d, cs => do
    let cs := skipBlanks cs
    let isEmpty := cs.isEmpty || cs.head? == some '#' || (lineEnd? cs).isSome
    let (d, cs) ← if isEmpty then some (d, cs) else do
      let (line, cs) ← line? cs
      pure (← d.add? line, cs)
    match skipComment (skipBlanks cs) with
    | [] => return d
    | cs => lines? fuel d (← lineEnd? cs)

/-- The table that a document is. A mark of byte order in front of it does not count. -/
def read? (source : String) : Option Entries :=
  let cs := match source.toList with
    | '\uFEFF' :: cs => cs
    | cs => cs
  (lines? (cs.length + 1) .empty cs).map (·.root.entries)

end EsModule.Toml
