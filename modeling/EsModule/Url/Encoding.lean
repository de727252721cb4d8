import EsModule.Number.Decimal

/-!
# Characters outside of those of an address

A character that has no place in some part of an address is written as its bytes in UTF-8, each a
percent sign and two hexadecimal digits. Each part of an address has its own set of such characters;
those outside of ASCII are in all of these sets, and so are the control characters. The sets are
those of the URL Standard that paths, queries, fragments, users and opaque hosts need.
-/

namespace EsModule.Url

open EsModule.Number

/-! ## Sets of characters -/

/-- Whether a character is a control character or lies outside of ASCII. -/
def encodedAnywhere (c : Char) : Bool := c.toNat < 0x20 || 0x7f ≤ c.toNat

/-- The characters that are encoded in a fragment. -/
def encodedInFragment (c : Char) : Bool := encodedAnywhere c || " \"<>`".toList.contains c

/-- The characters that are encoded in a path. -/
def encodedInPath (c : Char) : Bool := encodedInFragment c || "#?\x7b\x7d".toList.contains c

/-- The characters that are encoded in a user name or a password. -/
def encodedInUserInfo (c : Char) : Bool := encodedInPath c || "/:;=@[\\]^|".toList.contains c

/-- The characters that are encoded in a query. Addresses of a special scheme have one more. -/
def encodedInQuery (special : Bool) (c : Char) : Bool :=
  encodedAnywhere c || " \"#<>".toList.contains c || (special && c == '\'')

/-! ## Encoding -/

/-- One hexadecimal digit. -/
def upperHexDigit (n : Nat) : Char := (Nat.digitChar n).toUpper

/-- One byte. -/
def encodeByte (b : UInt8) : List Char :=
  ['%', upperHexDigit (b.toNat / 16), upperHexDigit (b.toNat % 16)]

/-- A text in which the characters of a set are encoded. -/
def percentEncode (isEncoded : Char → Bool) (cs : List Char) : List Char :=
  cs.flatMap fun c => if isEncoded c then (String.utf8EncodeChar c).flatMap encodeByte else [c]

/-! ## Decoding -/

/-- The byte that two characters behind a percent sign stand for. -/
def encodedByte? (high low : Char) : Option UInt8 := do
  return UInt8.ofNat (16 * (← digitValue? high) + (← digitValue? low))

/-- The bytes that a text stands for. A percent sign without two digits stands for itself. -/
def percentDecode : List Char → List UInt8
  | '%' :: high :: low :: cs =>
    match encodedByte? high low with
    | some b => b :: percentDecode cs
    | none => String.utf8EncodeChar '%' ++ percentDecode (high :: low :: cs)
  | c :: cs => String.utf8EncodeChar c ++ percentDecode cs
  | [] => []

/-- The text that some bytes are in UTF-8. -/
def textOfBytes? (bytes : List UInt8) : Option (List Char) :=
  (String.fromUTF8? ⟨bytes.toArray⟩).map (·.toList)

end EsModule.Url

/-!
## Names outside of ASCII

A part of a domain name with characters outside of ASCII is written with ASCII characters alone:
first those of its characters that are in ASCII, and behind a hyphen where the others go. These are
taken in the order of their code points; for each one a number says how many places of all code
points and all positions lie between it and the one before. The digits of a number have weights that
adapt to the numbers before, so that small numbers stay short. This is Punycode, RFC 3492, with the
parameters for domain names and without its marks for capitals.
-/

namespace EsModule.Url.Punycode

/-- How many values a digit has. -/
def radix : Nat := 36

/-- The least and the greatest threshold of a digit. -/
def thresholds : Nat × Nat := (1, 26)

/-- The bias before the first number. -/
def firstBias : Nat := 72

/-- The first code point outside of ASCII. -/
def firstCode : Nat := 128

/-- A digit: a letter, or behind the letters a decimal digit. -/
def digit (value : Nat) : Char :=
  if value < 26 then Char.ofNat ('a'.toNat + value) else Char.ofNat ('0'.toNat + (value - 26))

/-- The threshold of a digit at a place, which counts in steps of `radix`. -/
def threshold (place bias : Nat) : Nat :=
  min thresholds.2 (max thresholds.1 (place - bias))

/-- A number in digits, the least significant one first. There is at most one digit for each bit. -/
def encodeNumber (bias : Nat) : Nat → Nat → Nat → List Char
  | 0, _, n => [digit n]
  | bound + 1, place, n =>
    let t := threshold place bias
    if n < t then [digit n]
    else
      digit (t + (n - t) % (radix - t)) ::
        encodeNumber bias bound (place + radix) ((n - t) / (radix - t))

/-- How often a number is divided until it is small, and what is left of it then. -/
def reduce (n : Nat) : Nat × Nat :=
  if _h : n ≤ (radix - thresholds.1) * thresholds.2 / 2 then (0, n)
  else
    let (times, rest) := reduce (n / (radix - thresholds.1))
    (times + 1, rest)
termination_by n
decreasing_by simp only [radix, thresholds] at *; omega

/-- The bias behind a number, when so many characters are written. -/
def adapt (n count : Nat) (isFirst : Bool) : Nat :=
  let n := if isFirst then n / 700 else n / 2
  let (times, rest) := reduce (n + n / count)
  times * radix + (radix - thresholds.1 + 1) * rest / (rest + 38)

/-- What was written so far. -/
structure Writer where
  /-- How many places were passed since the last character. -/
  passed : Nat
  /-- The bias of the next number. -/
  bias : Nat
  /-- How many characters are written. -/
  count : Nat
  /-- How many of them are in ASCII. -/
  basicCount : Nat
  /-- The digits. -/
  digits : List Char

/-- Passes a character while the characters with one code point are written. -/
def Writer.pass (code : Nat) (w : Writer) (c : Char) : Writer :=
  if c.toNat < code then { w with passed := w.passed + 1 }
  else if c.toNat = code then
    { w with
      passed := 0
      bias := adapt w.passed (w.count + 1) (w.count == w.basicCount)
      count := w.count + 1
      digits := w.digits ++ encodeNumber w.bias (w.passed.log2 + 1) radix w.passed }
  else w

/-- Writes the characters with the next code point. -/
def Writer.step (cs : List Char) (state : Nat × Writer) (code : Nat) : Nat × Writer :=
  let w := { state.2 with passed := state.2.passed + (code - state.1) * (state.2.count + 1) }
  let w := cs.foldl (Writer.pass code) w
  (code + 1, { w with passed := w.passed + 1 })

/-- The code points outside of ASCII, in their order and each once. -/
def codes (cs : List Char) : List Nat :=
  let insert (code : Nat) (sorted : List Nat) : List Nat :=
    sorted.takeWhile (· < code) ++ code :: sorted.dropWhile (· ≤ code)
  ((cs.map Char.toNat).filter (firstCode ≤ ·)).foldl (fun sorted code => insert code sorted) []

/-- A label in ASCII characters alone. -/
def encode (cs : List Char) : List Char :=
  let basic := cs.filter (·.toNat < firstCode)
  let front := if basic.isEmpty then [] else basic ++ ['-']
  let writer : Writer := ⟨0, firstBias, basic.length, basic.length, []⟩
  let (_, writer) := (codes cs).foldl (Writer.step cs) (firstCode, writer)
  front ++ writer.digits

/-! ### Decoding -/

/-- The value of a digit. -/
def digitValue? (c : Char) : Option Nat :=
  if 'a' ≤ c ∧ c ≤ 'z' then some (c.toNat - 'a'.toNat)
  else if '0' ≤ c ∧ c ≤ '9' then some (26 + (c.toNat - '0'.toNat))
  else none

/-- What was read so far. -/
structure Reader where
  /-- The bias of the next number. -/
  bias : Nat
  /-- The code point of the last character. -/
  code : Nat
  /-- The place behind the last character. -/
  position : Nat
  /-- The characters. -/
  text : List Char

/-- Puts a character into the text, so many places behind the last one, if there is a character at
its code point. -/
def Reader.put (r : Reader) (passed : Nat) : Option Reader :=
  let count := r.text.length + 1
  let total := r.position + passed
  let code := r.code + total / count
  if code.isValidChar then
    some {
      bias := adapt passed count (r.position == 0)
      code
      position := total % count + 1
      text := r.text.insertIdx (total % count) (Char.ofNat code) }
  else none

/-- Reads digits, the next of which has a place and a weight in a number that is known so far. -/
def Reader.read (r : Reader) (place weight passed : Nat) : List Char → Option (List Char)
  | [] => if place = radix then some r.text else none
  | c :: cs => do
    let value ← digitValue? c
    let t := threshold place r.bias
    let passed := passed + value * weight
    if value < t then (← r.put passed).read radix 1 0 cs
    else r.read (place + radix) (weight * (radix - t)) passed cs

/-- The label that a text in ASCII characters stands for. -/
def decode (cs : List Char) : Option (List Char) :=
  let digits := (cs.reverse.takeWhile (· ≠ '-')).reverse
  let front := cs.take (cs.length - digits.length - 1)
  let reader : Reader := ⟨firstBias, firstCode, 0, front⟩
  reader.read radix 1 0 (if front.isEmpty then cs else digits)

end EsModule.Url.Punycode
