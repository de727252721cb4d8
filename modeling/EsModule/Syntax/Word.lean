/-!
# Words and punctuators

The two closed families of tokens: the words with a meaning of their own, and the punctuators.
Each member has one spelling, and the list of all members is in the order of declaration.
-/

namespace EsModule.Syntax

/-- The words that are tokens of their own. The literals `true`, `false` and `null` are among them,
and so are the words that can also be names in some places. -/
inductive Keyword where
  | kwAwait | kwBreak | kwCase | kwCatch | kwClass | kwConst | kwContinue | kwDebugger
  | kwDefault | kwDelete | kwDo | kwElse | kwEnum | kwExport | kwExtends | kwFinally | kwFor
  | kwFunction | kwIf | kwImport | kwIn | kwInstanceof | kwLet | kwNew | kwReturn | kwStatic
  | kwSuper | kwSwitch | kwThis | kwThrow | kwTry | kwTypeof | kwVar | kwVoid | kwWhile
  | kwWith | kwYield | kwAsync | kwTrue | kwFalse | kwNull
deriving DecidableEq

namespace Keyword

/-- The spelling of a word. -/
def text : Keyword → String
  | .kwAwait => "await"
  | .kwBreak => "break"
  | .kwCase => "case"
  | .kwCatch => "catch"
  | .kwClass => "class"
  | .kwConst => "const"
  | .kwContinue => "continue"
  | .kwDebugger => "debugger"
  | .kwDefault => "default"
  | .kwDelete => "delete"
  | .kwDo => "do"
  | .kwElse => "else"
  | .kwEnum => "enum"
  | .kwExport => "export"
  | .kwExtends => "extends"
  | .kwFinally => "finally"
  | .kwFor => "for"
  | .kwFunction => "function"
  | .kwIf => "if"
  | .kwImport => "import"
  | .kwIn => "in"
  | .kwInstanceof => "instanceof"
  | .kwLet => "let"
  | .kwNew => "new"
  | .kwReturn => "return"
  | .kwStatic => "static"
  | .kwSuper => "super"
  | .kwSwitch => "switch"
  | .kwThis => "this"
  | .kwThrow => "throw"
  | .kwTry => "try"
  | .kwTypeof => "typeof"
  | .kwVar => "var"
  | .kwVoid => "void"
  | .kwWhile => "while"
  | .kwWith => "with"
  | .kwYield => "yield"
  | .kwAsync => "async"
  | .kwTrue => "true"
  | .kwFalse => "false"
  | .kwNull => "null"

/-- All words. -/
def all : List Keyword :=
  [.kwAwait, .kwBreak, .kwCase, .kwCatch, .kwClass, .kwConst, .kwContinue, .kwDebugger,
   .kwDefault, .kwDelete, .kwDo, .kwElse, .kwEnum, .kwExport, .kwExtends, .kwFinally, .kwFor,
   .kwFunction, .kwIf, .kwImport, .kwIn, .kwInstanceof, .kwLet, .kwNew, .kwReturn, .kwStatic,
   .kwSuper, .kwSwitch, .kwThis, .kwThrow, .kwTry, .kwTypeof, .kwVar, .kwVoid, .kwWhile,
   .kwWith, .kwYield, .kwAsync, .kwTrue, .kwFalse, .kwNull]

/-- The word with a spelling, if there is one. -/
def ofText? (s : String) : Option Keyword := all.find? fun k => k.text == s

theorem text_ofText? {s : String} {k : Keyword} (h : ofText? s = some k) : k.text = s := by
  have := List.find?_some h
  simpa using this

end Keyword

/-- The punctuators. -/
inductive Punctuator where
  | leftBrace | rightBrace | leftParen | rightParen | leftBracket | rightBracket | dot
  | ellipsis | semicolon | comma | lessThan | greaterThan | lessThanEqual | greaterThanEqual
  | equalEqual | notEqual | strictEqual | strictNotEqual | plus | minus | star | slash
  | percent | starStar | plusPlus | minusMinus | leftShift | rightShift | unsignedRightShift
  | ampersand | pipe | caret | bang | tilde | ampersandAmpersand | pipePipe | questionQuestion
  | question | questionDot | colon | equal | plusEqual | minusEqual | starEqual | slashEqual
  | percentEqual | starStarEqual | leftShiftEqual | rightShiftEqual | unsignedRightShiftEqual
  | ampersandEqual | pipeEqual | caretEqual | ampersandAmpersandEqual | pipePipeEqual
  | questionQuestionEqual | arrow
deriving DecidableEq

namespace Punctuator

/-- The spelling of a punctuator. -/
def text : Punctuator → String
  | .leftBrace => "\x7b"
  | .rightBrace => "\x7d"
  | .leftParen => "("
  | .rightParen => ")"
  | .leftBracket => "["
  | .rightBracket => "]"
  | .dot => "."
  | .ellipsis => "..."
  | .semicolon => ";"
  | .comma => ","
  | .lessThan => "<"
  | .greaterThan => ">"
  | .lessThanEqual => "<="
  | .greaterThanEqual => ">="
  | .equalEqual => "=="
  | .notEqual => "!="
  | .strictEqual => "==="
  | .strictNotEqual => "!=="
  | .plus => "+"
  | .minus => "-"
  | .star => "*"
  | .slash => "/"
  | .percent => "%"
  | .starStar => "**"
  | .plusPlus => "++"
  | .minusMinus => "--"
  | .leftShift => "<<"
  | .rightShift => ">>"
  | .unsignedRightShift => ">>>"
  | .ampersand => "&"
  | .pipe => "|"
  | .caret => "^"
  | .bang => "!"
  | .tilde => "~"
  | .ampersandAmpersand => "&&"
  | .pipePipe => "||"
  | .questionQuestion => "??"
  | .question => "?"
  | .questionDot => "?."
  | .colon => ":"
  | .equal => "="
  | .plusEqual => "+="
  | .minusEqual => "-="
  | .starEqual => "*="
  | .slashEqual => "/="
  | .percentEqual => "%="
  | .starStarEqual => "**="
  | .leftShiftEqual => "<<="
  | .rightShiftEqual => ">>="
  | .unsignedRightShiftEqual => ">>>="
  | .ampersandEqual => "&="
  | .pipeEqual => "|="
  | .caretEqual => "^="
  | .ampersandAmpersandEqual => "&&="
  | .pipePipeEqual => "||="
  | .questionQuestionEqual => "??="
  | .arrow => "=>"

/-- The punctuators with longer spellings before those with shorter ones. -/
def longestFirst : List Punctuator :=
  [.unsignedRightShiftEqual, .ellipsis, .strictEqual, .strictNotEqual, .unsignedRightShift,
   .starStarEqual, .leftShiftEqual, .rightShiftEqual, .ampersandAmpersandEqual, .pipePipeEqual,
   .questionQuestionEqual, .lessThanEqual, .greaterThanEqual, .equalEqual, .notEqual,
   .starStar, .plusPlus, .minusMinus, .leftShift, .rightShift, .ampersandAmpersand, .pipePipe,
   .questionQuestion, .questionDot, .plusEqual, .minusEqual, .starEqual, .slashEqual,
   .percentEqual, .ampersandEqual, .pipeEqual, .caretEqual, .arrow, .leftBrace, .rightBrace,
   .leftParen, .rightParen, .leftBracket, .rightBracket, .dot, .semicolon, .comma, .lessThan,
   .greaterThan, .plus, .minus, .star, .slash, .percent, .ampersand, .pipe, .caret, .bang,
   .tilde, .question, .colon, .equal]

theorem mem_longestFirst (p : Punctuator) : p ∈ longestFirst := by cases p <;> decide

/-- Whether a punctuator may be read at the front of a text. Only `?.` looks further: before a digit
the point belongs to a number. -/
def startsAt (p : Punctuator) (cs : List Char) : Bool :=
  p.text.toList.isPrefixOf cs &&
    !(p == .questionDot && ((cs.drop 2).head?.any Char.isDigit))

/-- The longest punctuator at the front of a text. -/
def longest? (cs : List Char) : Option Punctuator := longestFirst.find? fun p => p.startsAt cs

/-- Whether a punctuator assigns. -/
def isAssignment : Punctuator → Bool
  | .equal | .plusEqual | .minusEqual | .starEqual | .slashEqual | .percentEqual | .starStarEqual
  | .leftShiftEqual | .rightShiftEqual | .unsignedRightShiftEqual | .ampersandEqual | .pipeEqual
  | .caretEqual | .ampersandAmpersandEqual | .pipePipeEqual | .questionQuestionEqual => true
  | _ => false

end Punctuator

end EsModule.Syntax
