import EsModule.Syntax.Grammar.Basic
import EsModule.Syntax.Pattern

/-!
# Targets and the keys of properties

`Grammar` names the rules that other rules call again for a part of what they read. A rule that
needs one takes a `Grammar`, so that no rule is recursive by itself, and the rules are tied together
in one place at the end.

The rules here read what can be bound: a name, or a pattern of names with default values. They read
the keys of properties too, which patterns, objects and classes share.
-/

namespace EsModule.Syntax

/-- An operand, and the items of the list that it was read from if it stands in parentheses, or is a
call of `async`: should an arrow follow, the items are parameters. -/
structure Operand where
  /-- The operand. -/
  node : Node
  /-- The items that become parameters if an arrow follows. -/
  items : Option (List Node)

/-- The rules that are called again for parts. -/
structure Grammar where
  /-- A statement. -/
  statement : Parser Node
  /-- An expression without a comma at the top. -/
  assignment : Parser Node
  /-- Operands joined by operators of at least some precedence. -/
  binary : Nat → Parser Operand
  /-- An operand with the operators in front of it. -/
  unary : Parser Operand
  /-- Members and calls. -/
  leftHandSide : Parser Operand
  /-- The making of an object. -/
  newExpression : Parser Node
  /-- A target that binds names. -/
  bindingTarget : Parser Node

namespace Grammar

open EsModule.Syntax.Parser

/-- An expression, where commas part a sequence. -/
def expression (g : Grammar) : Parser Node := do
  let start ← here
  let first ← g.assignment
  unless ← sees .comma do return first
  let all ← loop [first] fun items => do
    if ← eat .comma then return .again (items ++ [← g.assignment]) else return .finish items
  node (.sequenceExpression all) start

/-- A literal that can be a key: a string, a number or a large integer. -/
def literalKey? (kind : TokenKind) (text : String) : Option (Kind Node) :=
  match kind with
  | .string value => some (.literal (.string value (some text)))
  | .number value => some (.literal (.number value text))
  | .bigInt digits => some (.literal (.bigInt digits))
  | _ => none

/-- The key of a property, and whether it is computed. -/
def propertyKey (g : Grammar) : Parser (Node × Bool) := do
  let start ← here
  if ← eat .leftBracket then
    let key ← withIn true g.assignment
    expect .rightBracket
    return (key, true)
  let kind := (← current).kind
  let key : Kind Node ← match literalKey? kind (← currentText), kind, kind.name? with
    | some literal, _, _ => pure literal
    | none, .privateName name, _ => pure (.privateName name)
    | none, _, some name => pure (.identifier name)
    | none, _, none => unexpected
  advance
  return (← node key start, false)

/-- The value of a property that is written as a name alone, perhaps with a default value. -/
def shorthandValue (g : Grammar) (key : Node) : Parser Node := do
  let name := key.name?.getD ""
  if name = Keyword.kwYield.text || name = Keyword.kwAwait.text then fail (.reservedWord name)
  let value ← nodeAt (.identifier name) key.span
  unless ← eat .equal do return value
  let right ← g.assignment
  node (.assignmentPattern value right) key.span.start

/-- A target with an optional default value. -/
def bindingElement (g : Grammar) : Parser Node := do
  let start ← here
  let left ← g.bindingTarget
  unless ← eat .equal do return left
  let right ← withIn true g.assignment
  node (.assignmentPattern left right) start

/-- A rest element behind its dots, whose target `target` reads. -/
def restElement (start : Nat) (target : Parser Node) : Parser Node := do
  let argument ← target
  node (.restElement argument) start

/-- Moves over a comma, unless the list ends here. -/
def commaUnless (ends : Punctuator) : Parser Unit := do unless ← sees ends do expect .comma

/-- A target that takes a list apart. -/
def arrayPattern (g : Grammar) : Parser Node := do
  let start ← here
  advance
  let elements ← listUntil (· = .punctuator .rightBracket) do
    if ← eat .comma then return ([none], true)
    let itemStart ← here
    if ← eat .ellipsis then return ([some (← restElement itemStart g.bindingTarget)], false)
    let element ← g.bindingElement
    commaUnless .rightBracket
    return ([some element], true)
  expect .rightBracket
  node (.arrayPattern elements) start

/-- A member of a target that takes an object apart. -/
def patternProperty (g : Grammar) (start : Nat) : Parser Node := do
  let mayBeShort ← atBindingName
  let (key, computed) ← g.propertyKey
  let (value, shorthand) ←
    if ← eat .colon then pure (← g.bindingElement, false)
    else if mayBeShort && !computed then pure (← g.shorthandValue key, true)
    else unexpected
  node (.property key value .plain computed shorthand false) start

/-- A target that takes an object apart. -/
def objectPattern (g : Grammar) : Parser Node := do
  let start ← here
  advance
  let properties ← listUntil (· = .punctuator .rightBrace) do
    let itemStart ← here
    if ← eat .ellipsis then return ([← restElement itemStart bindingName], false)
    let property ← g.patternProperty itemStart
    commaUnless .rightBrace
    return ([property], true)
  expect .rightBrace
  node (.objectPattern properties) start

/-- A target that binds names. -/
def bindingTargetRule (g : Grammar) : Parser Node := do
  match (← current).kind with
  | .punctuator .leftBracket => g.arrayPattern
  | .punctuator .leftBrace => g.objectPattern
  | _ => bindingName

end Grammar

end EsModule.Syntax
