import EsModule.Syntax.Escape
import EsModule.Syntax.Trivia
import EsModule.Text.Identifier

/-!
# Reading tokens

`nextToken` skips what stands before a token and reads the token: the first character decides what
kind of token it is, and each kind takes the longest text that fits. Nothing is refused; text that
fits nowhere becomes a token of kind `invalid`.

Two readings depend on the grammar and are asked for by whoever knows it. A `/` where an operand is
expected opens a regular expression, `rescanRegExp`; and a `}` that ends a substitution opens the
next chunk of a template, `rescanTemplate`.

Every token but the last takes at least one character (`length_nextToken`), so `tokens` ends.
-/

namespace EsModule.Syntax

open EsModule.Text EsModule.Number

/-! ## Strings and templates -/

/-- The rest of a string up to its closing quote. Only a line feed or a carriage return breaks a
string off; `acc` holds the characters so far, last one first. -/
def stringBody (quote : Char) (acc : List Char) (c : Cursor) : TokenKind × Cursor :=
  match _h : c.rest with
  | [] => (.invalid .unterminatedString, c)
  | ch :: _ =>
    if ch = quote then (.string (String.ofList acc.reverse), c.advance)
    else if ch = '\n' || ch = '\r' then (.invalid .unterminatedString, c.advance)
    else if ch = '\\' then
      match _he : escape c.advance with
      | (.ok (some e), next) => stringBody quote (e :: acc) next
      | (.ok none, next) => stringBody quote acc next
      | (.error cause, next) => (.invalid cause, next)
    else stringBody quote (ch :: acc) c.advance
termination_by c.rest.length
decreasing_by
  all_goals
    have h1 := Cursor.length_advance_lt _h
    have h2 := length_escape c.advance
    simp_all <;> omega

/-- The rest of a template chunk up to its closing delimiter, as the cooked characters so far and
the place in front of the delimiter. A malformed escape spoils the cooked text and nothing else. -/
def templateBody (acc : Option (List Char)) (c : Cursor) :
    Option (Option (List Char) × Cursor) × Cursor :=
  match _h : c.rest with
  | [] => (none, c)
  | '`' :: _ => (some (acc, c), c.advance)
  | '$' :: '{' :: _ => (some (acc, c), c.drop 2)
  | ch :: _ =>
    if ch = '\\' then
      match _he : escape c.advance with
      | (.ok (some e), next) => templateBody (acc.map (e :: ·)) next
      | (.ok none, next) => templateBody acc next
      | (.error _, next) => templateBody none next
    else templateBody (acc.map (ch :: ·)) c.advance
termination_by c.rest.length
decreasing_by
  all_goals
    have h1 := Cursor.length_advance_lt _h
    have h2 := length_escape c.advance
    simp_all <;> omega

/-- A template chunk behind its opening delimiter. -/
def templateChunk (c : Cursor) : TokenKind × Cursor :=
  match templateBody (some []) c with
  | (some (cooked, stop), next) =>
    (.template ⟨cooked.map fun cs => String.ofList cs.reverse, String.ofList (c.textTo stop.pos)⟩
      (stop.sees '`'), next)
  | (none, next) => (.invalid .unterminatedTemplate, next)

/-! ## Regular expressions -/

/-- Splits a text where the body of a regular expression ends: in front of the first `/` that is
neither escaped nor in a class, or behind what breaks it off, which is a line end or the end of the
text. The bit says whether it is closed. -/
def splitRegExp (inClass : Bool) : List Char → List Char × Bool × List Char
  | [] => ([], false, [])
  | '\\' :: c :: cs =>
    if isLineTerminator c then (['\\', c], false, cs)
    else
      let (body, closed, rest) := splitRegExp inClass cs
      ('\\' :: c :: body, closed, rest)
  | c :: cs =>
    if isLineTerminator c then ([c], false, cs)
    else if c = '/' && !inClass then ([], true, c :: cs)
    else
      let (body, closed, rest) := splitRegExp (c = '[' || (inClass && c ≠ ']')) cs
      (c :: body, closed, rest)

/-- A regular expression behind its opening `/`. -/
def regExpBody (c : Cursor) : TokenKind × Cursor :=
  let (body, closed, _) := splitRegExp false c.rest
  let stop := c.drop body.length
  if closed then
    let (flags, next) := stop.advance.takeWhile isIdContinue
    (.regExp (String.ofList body) (String.ofList flags), next)
  else (.invalid .unterminatedRegExp, stop)

/-! ## Numbers -/

/-- Whether a character can stand among the digits of a decimal number: underscores part digits. -/
def isNumeral (c : Char) : Bool := c.isDigit || c == '_'

/-- Digits without the underscores among them. -/
def dropUnderscores (cs : List Char) : List Char := cs.filter (· != '_')

/-- The exponent of a decimal number, which may be missing. -/
def exponentPart (c : Cursor) : List Char × Cursor :=
  match c.rest with
  | e :: '+' :: _ | e :: '-' :: _ =>
    if e = 'e' || e = 'E' then
      let (digits, next) := (c.drop 2).takeWhile isNumeral
      (c.rest.take 2 ++ digits, next)
    else ([], c)
  | e :: _ =>
    if e = 'e' || e = 'E' then
      let (digits, next) := c.advance.takeWhile isNumeral
      (e :: digits, next)
    else ([], c)
  | [] => ([], c)

/-- The fraction of a decimal number with its point, which may be missing. -/
def fractionPart (c : Cursor) : List Char × Cursor :=
  if c.sees '.' then
    let (digits, next) := c.advance.takeWhile isNumeral
    ('.' :: digits, next)
  else ([], c)

/-- A number of a radix other than ten behind its zero and the letter for the radix. Numbers of 64
bits are rounded to the nearest floating point number, and larger ones are refused. -/
def radixNumber (radix : Nat) (letter : Char) (c : Cursor) : TokenKind × Cursor :=
  let (numerals, next) := c.takeWhile fun ch => isDigitOf radix ch || ch == '_'
  let digits := dropUnderscores numerals
  let text := String.ofList ('0' :: letter :: digits)
  let value := readDigits radix digits
  if next.sees 'n' then (.bigInt text, next.advance)
  else if digits.isEmpty || Nat.pow 2 64 ≤ value then (.invalid (.invalidNumber text), next)
  else (.number (.ofNat value), next)

/-- A decimal number whose first character, a digit or a point, has been read. -/
def decimalNumber (first : Char) (c : Cursor) : TokenKind × Cursor :=
  let (numerals, c) := c.takeWhile isNumeral
  let (fraction, c) := if first = '.' then ([], c) else fractionPart c
  let (exponent, c) := exponentPart c
  let digits := dropUnderscores (first :: numerals ++ fraction ++ exponent)
  if c.sees 'n' then (.bigInt (String.ofList digits), c.advance)
  else
    match Decimal.read? digits with
    | some d => (.number (.ofDecimal d), c)
    | none => (.invalid (.invalidNumber (String.ofList digits)), c)

/-- The radix that a letter behind a leading zero stands for. -/
def radixOf? : Char → Option Nat
  | 'x' | 'X' => some 16
  | 'o' | 'O' => some 8
  | 'b' | 'B' => some 2
  | _ => none

/-- A number whose first character has been read. -/
def number (first : Char) (c : Cursor) : TokenKind × Cursor :=
  match c.peek with
  | some letter =>
    match radixOf? letter with
    | some radix =>
      if first = '0' then radixNumber radix letter c.advance else decimalNumber first c
    | none => decimalNumber first c
  | none => decimalNumber first c

/-! ## Names -/

/-- A name or a word whose first character has been read. -/
def nameOrWord (first : Char) (c : Cursor) : TokenKind × Cursor :=
  let (behind, next) := c.takeWhile isIdContinue
  let name := String.ofList (first :: behind)
  match Keyword.ofText? name with
  | some word => (.keyword word, next)
  | none => (.identifier name, next)

/-- A private name behind its number sign. Its first character only has to continue an
identifier. -/
def privateNameBody (c : Cursor) : TokenKind × Cursor :=
  let (name, next) := c.takeWhile isIdContinue
  if name.isEmpty then (.invalid (.unexpectedCharacter '#'), next)
  else (.privateName (String.ofList name), next)

/-! ## Tokens -/

/-- The token that starts with `first`, which stands at `c`. -/
def tokenAt (first : Char) (c : Cursor) : TokenKind × Cursor :=
  let next := c.advance
  if first = '"' || first = '\'' then stringBody first [] next
  else if first = '`' then templateChunk next
  else if first.isDigit || (first = '.' && next.peek.any Char.isDigit) then number first next
  else if first = '#' then privateNameBody next
  else
    match Punctuator.longest? c.rest with
    | some mark => (.punctuator mark, c.drop mark.text.length)
    | none =>
      if isIdStart first then nameOrWord first next
      else (.invalid (.unexpectedCharacter first), next)

/-- The next token, and the place behind it. -/
def nextToken (c : Cursor) : Token × Cursor :=
  let (newline, start) := skipTrivia c
  match start.rest with
  | [] => (⟨.eof, ⟨start.pos, start.pos⟩, newline⟩, start)
  | first :: _ =>
    let (kind, next) := tokenAt first start
    (⟨kind, ⟨start.pos, next.pos⟩, newline⟩, next)

/-- The regular expression whose opening `/` is at the offset `start`, in front of `c`. -/
def rescanRegExp (start : Nat) (c : Cursor) : Token × Cursor :=
  let (kind, next) := regExpBody c
  (⟨kind, ⟨start, next.pos⟩, false⟩, next)

/-- The template chunk whose opening `}` is at the offset `start`, in front of `c`. -/
def rescanTemplate (start : Nat) (c : Cursor) : Token × Cursor :=
  let (kind, next) := templateChunk c
  (⟨kind, ⟨start, next.pos⟩, false⟩, next)

/-- The place where tokens start: behind a first line that begins with `#!`. -/
def firstCursor (source : List Char) : Cursor :=
  match source with
  | '#' :: '!' :: _ => (Cursor.start source).skipWhile fun ch => !isLineTerminator ch
  | _ => .start source

/-! ## Every token takes some text -/

theorem length_stringBody (quote : Char) (acc : List Char) (c : Cursor) :
    (stringBody quote acc c).2.rest.length ≤ c.rest.length := by
  fun_induction stringBody quote acc c with
  | case1 => exact Nat.le_refl _
  | case2 | case3 => exact Cursor.length_advance _
  | case4 acc c _ _ next he _ _ _ ih | case5 acc c _ next he _ _ _ ih =>
    have h1 := c.length_advance
    have h2 := length_escape c.advance
    rw [he] at h2
    exact Nat.le_trans ih (Nat.le_trans h2 h1)
  | case6 acc c _ _ next he =>
    have h1 := c.length_advance
    have h2 := length_escape c.advance
    rw [he] at h2
    exact Nat.le_trans h2 h1
  | case7 acc c ch _ _ _ _ _ ih => exact Nat.le_trans ih c.length_advance

theorem length_templateBody (acc : Option (List Char)) (c : Cursor) :
    (templateBody acc c).2.rest.length ≤ c.rest.length := by
  fun_induction templateBody acc c with
  | case1 => exact Nat.le_refl _
  | case2 => exact Cursor.length_advance _
  | case3 => exact Cursor.length_drop _ 2
  | case4 acc c _ _ next he _ _ _ ih | case5 acc c _ next he _ _ _ ih
  | case6 acc c _ _ next he _ _ _ ih =>
    have h1 := c.length_advance
    have h2 := length_escape c.advance
    rw [he] at h2
    exact Nat.le_trans ih (Nat.le_trans h2 h1)
  | case7 acc c _ _ _ _ _ _ ih => exact Nat.le_trans ih c.length_advance

theorem length_templateChunk (c : Cursor) : (templateChunk c).2.rest.length ≤ c.rest.length := by
  have h := length_templateBody (some []) c
  unfold templateChunk
  split <;> next he => rw [he] at h; exact h

theorem length_exponentPart (c : Cursor) : (exponentPart c).2.rest.length ≤ c.rest.length := by
  have h1 := Nat.le_trans ((c.drop 2).length_takeWhile isNumeral) (c.length_drop 2)
  have h2 := Nat.le_trans (c.advance.length_takeWhile isNumeral) c.length_advance
  unfold exponentPart
  split
  · split
    · exact h1
    · exact Nat.le_refl _
  · split
    · exact h1
    · exact Nat.le_refl _
  · split
    · exact h2
    · exact Nat.le_refl _
  · exact Nat.le_refl _

theorem length_fractionPart (c : Cursor) : (fractionPart c).2.rest.length ≤ c.rest.length := by
  unfold fractionPart
  split
  · exact Nat.le_trans (c.advance.length_takeWhile isNumeral) c.length_advance
  · exact Nat.le_refl _

theorem length_radixNumber (radix : Nat) (letter : Char) (c : Cursor) :
    (radixNumber radix letter c).2.rest.length ≤ c.rest.length := by
  unfold radixNumber
  dsimp only
  have h1 := c.length_takeWhile fun ch => isDigitOf radix ch || ch == '_'
  have h2 := (c.takeWhile fun ch => isDigitOf radix ch || ch == '_').2.length_advance
  split
  · exact Nat.le_trans h2 h1
  split <;> exact h1

theorem length_decimalNumber (first : Char) (c : Cursor) :
    (decimalNumber first c).2.rest.length ≤ c.rest.length := by
  unfold decimalNumber
  dsimp only
  generalize hf : (if first = '.' then ([], (c.takeWhile isNumeral).2)
    else fractionPart (c.takeWhile isNumeral).2) = fraction
  have h1 := c.length_takeWhile isNumeral
  have h2 : fraction.2.rest.length ≤ (c.takeWhile isNumeral).2.rest.length := by
    subst hf
    split
    · exact Nat.le_refl _
    · exact length_fractionPart _
  have h3 := length_exponentPart fraction.2
  have h4 := (exponentPart fraction.2).2.length_advance
  split
  · dsimp only
    omega
  · split <;> dsimp only <;> omega

theorem length_number (first : Char) (c : Cursor) :
    (number first c).2.rest.length ≤ c.rest.length := by
  unfold number
  split
  · split
    · split
      · exact Nat.le_trans (length_radixNumber _ _ _) c.length_advance
      · exact length_decimalNumber _ _
    · exact length_decimalNumber _ _
  · exact length_decimalNumber _ _

theorem length_nameOrWord (first : Char) (c : Cursor) :
    (nameOrWord first c).2.rest.length ≤ c.rest.length := by
  have h := c.length_takeWhile isIdContinue
  unfold nameOrWord
  dsimp only
  split <;> exact h

theorem length_privateNameBody (c : Cursor) :
    (privateNameBody c).2.rest.length ≤ c.rest.length := by
  have h := c.length_takeWhile isIdContinue
  unfold privateNameBody
  dsimp only
  split <;> exact h

theorem Punctuator.length_text_pos (p : Punctuator) : 0 < p.text.length := by
  cases p <;> decide

theorem length_tokenAt {first : Char} {c : Cursor} {rest : List Char} (h : c.rest = first :: rest) :
    (tokenAt first c).2.rest.length < c.rest.length := by
  have hlt := Cursor.length_advance_lt h
  unfold tokenAt
  dsimp only
  split
  · exact Nat.lt_of_le_of_lt (length_stringBody _ _ _) hlt
  split
  · exact Nat.lt_of_le_of_lt (length_templateChunk _) hlt
  split
  · exact Nat.lt_of_le_of_lt (length_number _ _) hlt
  split
  · exact Nat.lt_of_le_of_lt (length_privateNameBody _) hlt
  split
  · next mark _ =>
    have := mark.length_text_pos
    simp only [Cursor.drop, List.length_drop, h, List.length_cons]
    omega
  · split
    · exact Nat.lt_of_le_of_lt (length_nameOrWord _ _) hlt
    · exact hlt

/-- Reading a token takes some text, unless none is left but trivia. -/
theorem length_nextToken {c : Cursor} (h : (nextToken c).1.kind ≠ .eof) :
    (nextToken c).2.rest.length < c.rest.length := by
  have hs := length_skipTrivia c
  unfold nextToken at h ⊢
  dsimp only at h ⊢
  split at h
  · exact absurd rfl h
  · next first rest hc => exact Nat.lt_of_lt_of_le (length_tokenAt hc) hs

/-! ## All tokens -/

/-- The tokens from a place on; the last one is the end of the source. -/
def tokensFrom (c : Cursor) : List Token :=
  let next := nextToken c
  if _h : next.1.kind = .eof then [next.1] else next.1 :: tokensFrom next.2
termination_by c.rest.length
decreasing_by exact length_nextToken _h

/-- The tokens of a source; the last one is its end. -/
def tokens (source : List Char) : List Token := tokensFrom (firstCursor source)

end EsModule.Syntax
