import EsModule.Syntax.Token

/-!
# Operators

The four families of operators, each with its spellings. A binary operator also has a precedence:
operators of a higher one bind tighter. `BinaryOperator.ofToken?` and its companions tell which
operator a token stands for.
-/

namespace EsModule.Syntax

/-- The operators between two operands that do not assign. -/
inductive BinaryOperator where
  | add | subtract | multiply | divide | modulo | exponent
  | equal | notEqual | strictEqual | strictNotEqual
  | lessThan | lessThanEqual | greaterThan | greaterThanEqual
  | logicalAnd | logicalOr | nullishCoalescing
  | bitwiseAnd | bitwiseOr | bitwiseXor | leftShift | rightShift | unsignedRightShift
  | isIn | instanceOf
deriving DecidableEq

namespace BinaryOperator

/-- All binary operators, in the order of declaration. -/
def all : List BinaryOperator :=
  [.add, .subtract, .multiply, .divide, .modulo, .exponent, .equal, .notEqual, .strictEqual,
   .strictNotEqual, .lessThan, .lessThanEqual, .greaterThan, .greaterThanEqual, .logicalAnd,
   .logicalOr, .nullishCoalescing, .bitwiseAnd, .bitwiseOr, .bitwiseXor, .leftShift,
   .rightShift, .unsignedRightShift, .isIn, .instanceOf]

/-- The token of an operator. -/
def token : BinaryOperator → TokenKind
  | .add => .punctuator .plus
  | .subtract => .punctuator .minus
  | .multiply => .punctuator .star
  | .divide => .punctuator .slash
  | .modulo => .punctuator .percent
  | .exponent => .punctuator .starStar
  | .equal => .punctuator .equalEqual
  | .notEqual => .punctuator .notEqual
  | .strictEqual => .punctuator .strictEqual
  | .strictNotEqual => .punctuator .strictNotEqual
  | .lessThan => .punctuator .lessThan
  | .lessThanEqual => .punctuator .lessThanEqual
  | .greaterThan => .punctuator .greaterThan
  | .greaterThanEqual => .punctuator .greaterThanEqual
  | .logicalAnd => .punctuator .ampersandAmpersand
  | .logicalOr => .punctuator .pipePipe
  | .nullishCoalescing => .punctuator .questionQuestion
  | .bitwiseAnd => .punctuator .ampersand
  | .bitwiseOr => .punctuator .pipe
  | .bitwiseXor => .punctuator .caret
  | .leftShift => .punctuator .leftShift
  | .rightShift => .punctuator .rightShift
  | .unsignedRightShift => .punctuator .unsignedRightShift
  | .isIn => .keyword .kwIn
  | .instanceOf => .keyword .kwInstanceof

/-- The spelling of an operator. -/
def text (op : BinaryOperator) : String :=
  match op.token with
  | .punctuator mark => mark.text
  | .keyword word => word.text
  | _ => ""

/-- The operator that a token stands for. -/
def ofToken? (kind : TokenKind) : Option BinaryOperator := all.find? fun op => op.token = kind

/-- How tightly an operator binds. -/
def precedence : BinaryOperator → Nat
  | .nullishCoalescing => 1
  | .logicalOr => 2
  | .logicalAnd => 3
  | .bitwiseOr => 4
  | .bitwiseXor => 5
  | .bitwiseAnd => 6
  | .equal | .notEqual | .strictEqual | .strictNotEqual => 7
  | .lessThan | .lessThanEqual | .greaterThan | .greaterThanEqual | .isIn | .instanceOf => 8
  | .leftShift | .rightShift | .unsignedRightShift => 9
  | .add | .subtract => 10
  | .multiply | .divide | .modulo => 11
  | .exponent => 12

/-- Whether an operator may leave its right operand unevaluated. -/
def isLogical : BinaryOperator → Bool
  | .logicalAnd | .logicalOr | .nullishCoalescing => true
  | _ => false

end BinaryOperator

/-- The operators in front of one operand. -/
inductive UnaryOperator where
  | minus | plus | logicalNot | bitwiseNot | typeof | void | delete
deriving DecidableEq

namespace UnaryOperator

/-- All unary operators, in the order of declaration. -/
def all : List UnaryOperator := [.minus, .plus, .logicalNot, .bitwiseNot, .typeof, .void, .delete]

/-- The token of an operator. -/
def token : UnaryOperator → TokenKind
  | .minus => .punctuator .minus
  | .plus => .punctuator .plus
  | .logicalNot => .punctuator .bang
  | .bitwiseNot => .punctuator .tilde
  | .typeof => .keyword .kwTypeof
  | .void => .keyword .kwVoid
  | .delete => .keyword .kwDelete

/-- The spelling of an operator. -/
def text (op : UnaryOperator) : String :=
  match op.token with
  | .punctuator mark => mark.text
  | .keyword word => word.text
  | _ => ""

/-- The operator that a token stands for. -/
def ofToken? (kind : TokenKind) : Option UnaryOperator := all.find? fun op => op.token = kind

/-- Whether an operator is spelled as a word, which needs a space behind it. -/
def isKeyword (op : UnaryOperator) : Bool := op.token.isKeyword

end UnaryOperator

/-- The operators that add or subtract one in place. -/
inductive UpdateOperator where
  | increment | decrement
deriving DecidableEq

namespace UpdateOperator

/-- Both update operators, in the order of declaration. -/
def all : List UpdateOperator := [.increment, .decrement]

/-- The punctuator of an operator. -/
def mark : UpdateOperator → Punctuator
  | .increment => .plusPlus
  | .decrement => .minusMinus

/-- The spelling of an operator. -/
def text (op : UpdateOperator) : String := op.mark.text

/-- The operator that a token stands for. -/
def ofToken? (kind : TokenKind) : Option UpdateOperator :=
  all.find? fun op => .punctuator op.mark = kind

end UpdateOperator

/-- The operators that assign. -/
inductive AssignmentOperator where
  | assign | addAssign | subtractAssign | multiplyAssign | divideAssign | moduloAssign
  | exponentAssign | leftShiftAssign | rightShiftAssign | unsignedRightShiftAssign
  | bitwiseAndAssign | bitwiseOrAssign | bitwiseXorAssign
  | logicalAndAssign | logicalOrAssign | nullishCoalescingAssign
deriving DecidableEq

namespace AssignmentOperator

/-- All assignment operators, in the order of declaration. -/
def all : List AssignmentOperator :=
  [.assign, .addAssign, .subtractAssign, .multiplyAssign, .divideAssign, .moduloAssign,
   .exponentAssign, .leftShiftAssign, .rightShiftAssign, .unsignedRightShiftAssign,
   .bitwiseAndAssign, .bitwiseOrAssign, .bitwiseXorAssign, .logicalAndAssign, .logicalOrAssign,
   .nullishCoalescingAssign]

/-- The punctuator of an operator. -/
def mark : AssignmentOperator → Punctuator
  | .assign => .equal
  | .addAssign => .plusEqual
  | .subtractAssign => .minusEqual
  | .multiplyAssign => .starEqual
  | .divideAssign => .slashEqual
  | .moduloAssign => .percentEqual
  | .exponentAssign => .starStarEqual
  | .leftShiftAssign => .leftShiftEqual
  | .rightShiftAssign => .rightShiftEqual
  | .unsignedRightShiftAssign => .unsignedRightShiftEqual
  | .bitwiseAndAssign => .ampersandEqual
  | .bitwiseOrAssign => .pipeEqual
  | .bitwiseXorAssign => .caretEqual
  | .logicalAndAssign => .ampersandAmpersandEqual
  | .logicalOrAssign => .pipePipeEqual
  | .nullishCoalescingAssign => .questionQuestionEqual

/-- The spelling of an operator. -/
def text (op : AssignmentOperator) : String := op.mark.text

/-- The operator that a token stands for. -/
def ofToken? (kind : TokenKind) : Option AssignmentOperator :=
  all.find? fun op => .punctuator op.mark = kind

end AssignmentOperator

end EsModule.Syntax
