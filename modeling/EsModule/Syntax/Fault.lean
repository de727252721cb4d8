import EsModule.Syntax.Token
import EsModule.Text.Position

/-!
# Syntax errors

A `SyntaxFault` is the cause for which a source is refused, and `SyntaxError` is what a reader is
told: the wording of the cause, the file, and the line and column of the token at fault.
-/

namespace EsModule.Syntax

open EsModule.Text

/-- Why a source is refused. -/
inductive SyntaxFault where
  /-- Some text is no token. -/
  | lexical (cause : LexError)
  /-- The source ends too early. -/
  | unexpectedEnd
  /-- A token stands where the grammar has no place for it. -/
  | unexpectedToken (text : String)
  /-- A word is missing that is a name elsewhere. -/
  | expectedWord (word : String)
  /-- The word `yield` is used as a name. -/
  | reservedYield
  /-- A reserved word is used as a name. -/
  | reservedWord (name : String)
  /-- The left side of an assignment is no target. -/
  | invalidAssignmentTarget
  /-- The operand of an update in front is no target. -/
  | invalidPrefixTarget
  /-- The operand of an update behind is no target. -/
  | invalidPostfixTarget
  /-- What should be a parameter is no pattern. -/
  | invalidParameter
  /-- What should be taken apart is no pattern. -/
  | invalidPattern
  /-- A `with` statement. -/
  | withStatement
  /-- A line ends behind `throw`. -/
  | newlineAfterThrow
  /-- A `try` has neither `catch` nor `finally`. -/
  | missingHandler
  /-- A function statement has no name. -/
  | missingFunctionName
  /-- A class statement has no name. -/
  | missingClassName
  /-- The bound on the depth of nesting was reached, which no source does. -/
  | nestingBound
deriving DecidableEq

/-- The wording of a cause. -/
def SyntaxFault.message : SyntaxFault → String
  | .lexical cause => cause.message
  | .unexpectedEnd => "Unexpected end of input"
  | .unexpectedToken text => "Unexpected token '" ++ text ++ "'"
  | .expectedWord word => "Expected '" ++ word ++ "'"
  | .reservedYield => "Unexpected reserved word 'yield' in strict mode"
  | .reservedWord name => "Unexpected reserved word '" ++ name ++ "'"
  | .invalidAssignmentTarget => "Invalid left-hand side in assignment"
  | .invalidPrefixTarget => "Invalid left-hand side expression in prefix operation"
  | .invalidPostfixTarget => "Invalid left-hand side expression in postfix operation"
  | .invalidParameter => "Invalid destructuring target in parameter list"
  | .invalidPattern => "Invalid destructuring assignment target"
  | .withStatement => "Strict mode code may not include a with statement"
  | .newlineAfterThrow => "Illegal newline after throw"
  | .missingHandler => "Missing catch or finally after try"
  | .missingFunctionName => "Function statements require a function name"
  | .missingClassName => "Class statements require a class name"
  | .nestingBound => "Nesting too deep"

/-- A refusal as a reader is told of it. -/
structure SyntaxError where
  /-- What is wrong. -/
  text : String
  /-- The file the source came from. -/
  file : String
  /-- The line of the fault, counted from one. -/
  line : Nat
  /-- The column of the fault, counted from one. -/
  column : Nat
deriving DecidableEq

namespace SyntaxError

/-- The error at a byte offset of a source. -/
def atOffset (source : List Char) (offset : Nat) (file text : String) : SyntaxError :=
  let (line, column) := lineColumn source offset
  ⟨text, file, line, column⟩

/-- The full wording of an error. -/
def message (e : SyntaxError) : String :=
  "SyntaxError: " ++ e.text ++ " (" ++ e.file ++ ":" ++ toString e.line ++ ":" ++
    toString e.column ++ ")"

end SyntaxError

end EsModule.Syntax
