import EsModule.Number.Decimal
import EsModule.Syntax.Node
import EsModule.Syntax.Pattern
import EsModule.Syntax.Quoted
import EsModule.Text.Identifier

/-!
# Pieces of printed text

What a tree is printed as is a list of pieces: text, and marks that say which offset of the source
the text behind them comes from. How a part is printed depends on its `Layout`: how far lines are
indented, and whether an `in` could be taken for the one in the head of a loop.
-/

namespace EsModule.Syntax

open EsModule.Number EsModule.Text

/-- A piece of printed text. -/
inductive Piece where
  /-- Some text. -/
  | text (s : String)
  /-- The place of an offset of the source. -/
  | mark (offset : Nat)
deriving DecidableEq

/-- Printed text with its marks. -/
abbrev Pieces := List Piece

/-- What the surroundings of a part decide. -/
structure Layout where
  /-- How many steps lines are indented. -/
  indent : Nat
  /-- Whether a bare `in` would end the head of a loop. -/
  noIn : Bool
deriving DecidableEq

namespace Layout

/-- One step further to the right. -/
def deeper (l : Layout) : Layout := { l with indent := l.indent + 1 }

/-- The layout of the top of a module. -/
def top : Layout := ⟨0, false⟩

end Layout

namespace Pieces

/-- Plain text. -/
def say (s : String) : Pieces := [.text s]

/-- Text that is printed only under a condition. -/
def sayIf (b : Bool) (s : String) : Pieces := if b then say s else []

/-- The mark for the start of a span. What was never in the source has none. -/
def mark (span : Span) : Pieces := if span.isEmpty then [] else [.mark span.start]

/-- Two spaces for each step of indentation. -/
def indentation (l : Layout) : Pieces := say (String.ofList (List.replicate (2 * l.indent) ' '))

/-- Parts with commas between them. -/
def commaList : List Pieces → Pieces
  | [] => []
  | [p] => p
  | p :: q :: ps => p ++ say ", " ++ commaList (q :: ps)

/-- A part between parentheses. -/
def parenthesized (p : Pieces) : Pieces := say "(" ++ p ++ say ")"

/-- An opening brace. -/
def openBrace : String := "\x7b"

/-- A closing brace. -/
def closeBrace : String := "\x7d"

/-- Two braces with nothing between them. -/
def emptyBraces : Pieces := say (openBrace ++ closeBrace)

/-- Parts between braces on one line. -/
def braced (ps : List Pieces) : Pieces :=
  say (openBrace ++ " ") ++ commaList ps ++ say (" " ++ closeBrace)

/-- The text without its marks. -/
def text (ps : Pieces) : String :=
  String.join (ps.map fun p => match p with
    | .text s => s
    | .mark _ => "")

end Pieces

/-- Whole numbers below this are printed by their digits alone. -/
def wholeLimit : Nat := Nat.pow 10 21

/-- The greatest and the least whole numbers of 64 bits bound what is printed as whole. -/
def wholeDigits (negative : Bool) (n : Nat) : List Char :=
  if negative then
    if n = 0 then ['0'] else '-' :: Nat.toDigits 10 (min n (Nat.pow 2 63))
  else Nat.toDigits 10 (min n (Nat.pow 2 63 - 1))

/-- The text of a number that has no spelling of its own. -/
def numberText (x : Binary64) : String :=
  if x.isNan then "NaN"
  else if x.isInfinite then if x.isNegative then "-Infinity" else "Infinity"
  else if x.isInteger && x.truncated < wholeLimit then
    String.ofList (wholeDigits x.isNegative x.truncated)
  else String.ofList x.positional

/-- The text of a literal. -/
def literalText : Literal → String
  | .number value raw => if raw.isEmpty then numberText value else raw
  | .string value raw => raw.getD (quote value)
  | .boolean value => if value then "true" else "false"
  | .null => "null"
  | .bigInt digits => digits ++ "n"
  | .regExp pattern flags => "/" ++ pattern ++ "/" ++ flags

/-- The name of an export, as a string if it is no identifier. -/
def exportNameText (name : String) : String :=
  if isIdentifierName name.toList then name else quote name

/-!
## The roles of a node in print

How a node is printed depends on the place where it stands: a function is one thing as a statement
and another as the value of a method. `Roles` holds the ways to print one node, each a function of
the layout, so that the ways to print a node follow from the ways to print its children.

The rules about parentheses are here too. Every kind of expression has a `tightness`, and each place
asks for a least one; what is looser is put in parentheses. And some expressions cannot start with
the token that their leftmost part starts with: `Opening` says which those are.
-/

open Pieces

/-- What stands leftmost in an expression, as far as it matters to what is around. -/
inductive Opening where
  /-- An object. -/
  | object
  /-- A pattern for an object. -/
  | objectPattern
  /-- A function or a class. -/
  | declaration
  /-- Anything else. -/
  | plain
deriving DecidableEq

/-- The ways in which one node is printed, by the place where it stands. -/
structure Roles where
  /-- As a statement. -/
  statement : Layout → Pieces
  /-- As an expression of at least some tightness. -/
  expression : Layout → Nat → Pieces
  /-- As an expression that needs no parentheses. -/
  bare : Layout → Pieces
  /-- In the head of a loop. -/
  loopHead : Layout → Pieces
  /-- As one of the variables of a declaration. -/
  declarator : Layout → Pieces
  /-- As a case of a `switch`. -/
  switchCase : Layout → Pieces
  /-- As the handler of a `try`. -/
  handler : Layout → Pieces
  /-- As the body of a class. -/
  classBody : Layout → Pieces
  /-- As a member of a class. -/
  member : Layout → Pieces
  /-- As the value of a method, an accessor of some kind, with the given key. -/
  method : PropertyKind → Pieces → Layout → Pieces
  /-- What the expression starts with. -/
  opening : Opening
  /-- Whether the callee of `new` would end at a call in this expression. -/
  hasCall : Bool

/-- A child of a node, with the ways to print it. -/
abbrev Child := Node × Roles

namespace Tightness

/-- Expressions in sequence. -/
def sequence : Nat := 0

/-- Assignments, arrow functions and `yield`. -/
def assign : Nat := 1

/-- A choice between values. -/
def conditional : Nat := 2

/-- Operators between operands, by their precedence. -/
def binary (operator : BinaryOperator) : Nat := operator.precedence + 2

/-- Operators in front of an operand. -/
def unary : Nat := 15

/-- Updates behind their target. -/
def postfixed : Nat := 16

/-- Members and calls. -/
def call : Nat := 18

/-- Whatever never needs parentheses. -/
def primary : Nat := 19

end Tightness

/-- How tightly a kind of expression holds together. -/
def Kind.tightness {α : Type} : Kind α → Nat
  | .sequenceExpression _ => Tightness.sequence
  | .arrowFunction .. | .assignmentExpression .. | .yieldExpression .. => Tightness.assign
  | .conditionalExpression .. => Tightness.conditional
  | .binaryExpression operator _ _ => Tightness.binary operator
  | .unaryExpression .. | .awaitExpression _ => Tightness.unary
  | .updateExpression _ inFront _ => if inFront then Tightness.unary else Tightness.postfixed
  | .callExpression .. | .newExpression .. | .memberExpression .. | .taggedTemplate ..
  | .importExpression _ => Tightness.call
  | _ => Tightness.primary

/-- What a kind of expression starts with, from its leftmost child. -/
def Kind.opening : Kind Child → Opening
  | .memberExpression (_, first) _ _ _ | .callExpression (_, first) _ _
  | .taggedTemplate (_, first) _ | .binaryExpression _ (_, first) _
  | .assignmentExpression _ (_, first) _ | .conditionalExpression (_, first) _ _
  | .sequenceExpression ((_, first) :: _) | .updateExpression _ false (_, first) => first.opening
  | .objectExpression _ => .object
  | .objectPattern _ => .objectPattern
  | .functionExpression _ | .classExpression _ => .declaration
  | _ => .plain

/-- Whether there is a call among the members that an expression starts with. -/
def Kind.hasCall : Kind Child → Bool
  | .callExpression .. => true
  | .memberExpression (_, object) _ _ _ => object.hasCall
  | .taggedTemplate (_, tag) _ => tag.hasCall
  | _ => false

/-- Puts an expression in parentheses if it is looser than `least`, or if it is an `in` where that
would be misread. Between parentheses an `in` is never misread. -/
def wrapped {α : Type} (kind : Kind α) (bare : Layout → Pieces) (l : Layout) (least : Nat) :
    Pieces :=
  let bareIn := l.noIn && match kind with
    | .binaryExpression .isIn _ _ => true
    | _ => false
  if bareIn || kind.tightness < least then parenthesized (bare { l with noIn := false })
  else bare l

/-- Puts an expression in parentheses if it starts with one of the `risks`. -/
def guarded (risks : List Opening) (e : Roles) (l : Layout) (least : Nat) : Pieces :=
  if risks.contains e.opening then parenthesized (e.expression l Tightness.sequence)
  else e.expression l least

/-- Whether a node was taken out. -/
def Node.isRemoved (n : Node) : Bool :=
  match n.kind with
  | .removed => true
  | _ => false

/-- Whether a node is a block. -/
def Node.isBlock (n : Node) : Bool :=
  match n.kind with
  | .blockStatement _ => true
  | _ => false

/-- Statements on lines of their own. -/
def lines (l : Layout) (body : List Child) : Pieces :=
  body.flatMap fun (n, r) => if n.isRemoved then [] else indentation l ++ r.statement l ++ say "\n"

/-- Statements between braces. Inside, `in` is an operator again. -/
def block (l : Layout) (body : List Child) : Pieces :=
  if body.all (·.1.isRemoved) then emptyBraces
  else
    say (openBrace ++ "\n") ++ lines ⟨l.indent + 1, false⟩ body ++ indentation l ++ say closeBrace

/-- A statement behind the head that it belongs to: a block on the same line, any other on a line of
its own. -/
def nested (l : Layout) : Child → Pieces
  | (n, r) =>
    if n.isBlock then say " " ++ r.statement l
    else say "\n" ++ indentation l.deeper ++ r.statement l.deeper

/-- Expressions with commas between them. -/
def expressionList (l : Layout) (items : List Child) : Pieces :=
  commaList (items.map fun (_, r) => r.expression l Tightness.assign)

/-- The parameters of a function. -/
def parameterList (l : Layout) (params : List Child) : Pieces :=
  parenthesized (expressionList l params)

/-- A function with its word. -/
def functionText (f : Function Child) (l : Layout) : Pieces :=
  let name := match f.name with
    | some (_, r) => r.expression l Tightness.primary
    | none => []
  sayIf f.isAsync "async " ++ say "function" ++ sayIf f.isGenerator "*" ++ say " " ++ name ++
    parameterList l f.params ++ say " " ++ f.body.2.statement l

/-- A function as the value of a method: the words in front of the key, the key, and the rest. -/
def methodText (f : Function Child) (kind : PropertyKind) (key : Pieces) (l : Layout) : Pieces :=
  let accessor := match kind with
    | .plain => []
    | .getter => say "get "
    | .setter => say "set "
  accessor ++ sayIf f.isAsync "async " ++ sayIf f.isGenerator "*" ++ key ++
    parameterList l f.params ++ say " " ++ f.body.2.statement l

/-- A class. -/
def classText (c : Class Child) (l : Layout) : Pieces :=
  let name := match c.name with
    | some (_, r) => r.expression l Tightness.primary ++ say " "
    | none => []
  let parent := match c.parent with
    | some (_, r) => say "extends " ++ r.expression l Tightness.call ++ say " "
    | none => []
  say "class " ++ name ++ parent ++ c.body.2.classBody l

/-- The key of a member. -/
def keyText (key : Child) (computed : Bool) (l : Layout) : Pieces :=
  if computed then say "[" ++ key.2.expression l Tightness.assign ++ say "]"
  else key.2.expression l Tightness.primary

end EsModule.Syntax
