import EsModule.Number.Binary64
import EsModule.Syntax.Word

/-!
# Tokens

A token is a kind and the span of source text it was read from, together with one bit that the
grammar needs: whether a line ends between it and the token before. Text that is no token at all is
kept as a token too, of kind `invalid` with the cause, so that reading tokens never fails.
-/

namespace EsModule.Syntax

open EsModule.Number (Binary64)

/-- A range of bytes in the source text. -/
structure Span where
  /-- The offset of the first byte. -/
  start : Nat
  /-- The offset behind the last byte. -/
  stop : Nat
deriving DecidableEq

namespace Span

/-- Whether a span covers no text. -/
def isEmpty (s : Span) : Bool := s.start == s.stop

/-- The least span from the start of `s` that covers `s` and `t`. -/
def through (s t : Span) : Span := ⟨s.start, max t.stop s.stop⟩

end Span

/-- Why some text is no token. -/
inductive LexError where
  | unexpectedCharacter (c : Char)
  | unterminatedString
  | unterminatedTemplate
  | unterminatedRegExp
  | unterminatedEscape
  | invalidHexEscape
  | invalidUnicodeEscape
  | invalidNumber (text : String)
deriving DecidableEq

/-- The wording of a cause. -/
def LexError.message : LexError → String
  | .unexpectedCharacter c => "Unexpected character '" ++ String.singleton c ++ "'"
  | .unterminatedString => "Unterminated string literal"
  | .unterminatedTemplate => "Unterminated template literal"
  | .unterminatedRegExp => "Unterminated regular expression"
  | .unterminatedEscape => "Unterminated escape sequence"
  | .invalidHexEscape => "Invalid hexadecimal escape sequence"
  | .invalidUnicodeEscape => "Invalid Unicode escape sequence"
  | .invalidNumber text => "Invalid number '" ++ text ++ "'"

/-- A chunk of a template between two delimiters. -/
structure Chunk where
  /-- The text with its escapes undone, unless one of them is malformed. -/
  cooked : Option String
  /-- The source text. -/
  raw : String
deriving DecidableEq

/-- The kinds of tokens. -/
inductive TokenKind where
  /-- A number. -/
  | number (value : Binary64)
  /-- An integer of any size, with the digits as they are written. -/
  | bigInt (digits : String)
  /-- A string, with its escapes undone. -/
  | string (value : String)
  /-- A chunk of a template, and whether it closes the template. -/
  | template (chunk : Chunk) (closes : Bool)
  /-- A regular expression. -/
  | regExp (pattern flags : String)
  /-- A name. -/
  | identifier (name : String)
  /-- A private name, without the number sign. -/
  | privateName (name : String)
  /-- A word with a meaning of its own. -/
  | keyword (word : Keyword)
  /-- A punctuator. -/
  | punctuator (mark : Punctuator)
  /-- The end of the source. -/
  | eof
  /-- Text that is no token. -/
  | invalid (cause : LexError)
deriving DecidableEq

namespace TokenKind

/-- The name of a token that can stand where the grammar takes any name: words count. -/
def name? : TokenKind → Option String
  | .identifier name => some name
  | .keyword word => some word.text
  | _ => none

/-- Whether a token is a word with a meaning of its own. -/
def isKeyword : TokenKind → Bool
  | .keyword _ => true
  | _ => false

/-- Whether a token stands for a value. -/
def isLiteral : TokenKind → Bool
  | .number _ | .bigInt _ | .string _ | .template .. | .regExp .. => true
  | .keyword word => word = .kwTrue || word = .kwFalse || word = .kwNull
  | _ => false

/-- Whether a token assigns. -/
def isAssignment : TokenKind → Bool
  | .punctuator mark => mark.isAssignment
  | _ => false

end TokenKind

/-- A token of the source. -/
structure Token where
  /-- What the token is. -/
  kind : TokenKind
  /-- The text it was read from. -/
  span : Span
  /-- Whether a line ends between the token before and this one. -/
  newlineBefore : Bool
deriving DecidableEq

end EsModule.Syntax
