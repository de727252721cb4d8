import EsModule.Syntax.Grammar.Primary

/-!
# Expressions

From the members and calls of an operand, over operators of rising precedence, up to assignments and
arrow functions. Operators of one precedence associate to the left, and only `**` to the right.

An arrow makes parameters of what stands in front of it: of a name, or of the items of a list in
parentheses, which were read as expressions and are read again as patterns.
-/

namespace EsModule.Syntax

namespace Grammar

open EsModule.Syntax.Parser

/-! ## Members and calls -/

/-- The arguments of a call, between parentheses. -/
def arguments (g : Grammar) : Parser (List Node) := do
  expect .leftParen
  let args ← withIn true <| listUntil (· = .punctuator .rightParen) do
    let argument ← g.spreadOrAssignment
    return ([argument], ← eat .comma)
  expect .rightParen
  return args

/-- The name of a member behind the point: any name, or a private one. -/
def memberName : Parser Node := do
  let start ← here
  match (← current).kind with
  | .privateName name =>
    advance
    node (.privateName name) start
  | _ =>
    let name ← anyName
    node (.identifier name) start

/-- A member that is computed, up to the closing bracket. -/
def computedMember (g : Grammar) : Parser Node := do
  let property ← withIn true g.expression
  expect .rightBracket
  return property

/-- What follows `?.`: a call, a computed member, or a name. -/
def optionalSuffix (g : Grammar) (object : Node) (start : Nat) : Parser Node := do
  if ← sees .leftParen then
    let args ← g.arguments
    node (.callExpression object args true) start
  else if ← eat .leftBracket then
    let property ← g.computedMember
    node (.memberExpression object property true true) start
  else
    let property ← memberName
    node (.memberExpression object property false true) start

/-- A call. If it could be the head of an arrow function, the arguments are kept as its items. -/
def call (g : Grammar) (callee : Node) (start : Nat) (mayBeHead : Bool) : Parser Operand := do
  let args ← g.arguments
  return ⟨← node (.callExpression callee args false) start, if mayBeHead then some args else none⟩

/-- Members and calls of an operand. -/
def leftHandSideRule (g : Grammar) : Parser Operand := do
  let start ← here
  let startsAsync ← seesWord .kwAsync
  let first : Operand ← if ← seesWord .kwNew then pure ⟨← g.newExpression, none⟩ else g.primary
  loop first fun operand => do
    let object := operand.node
    match (← current).kind with
    | .punctuator .dot =>
      advance
      let property ← memberName
      return .again ⟨← node (.memberExpression object property false false) start, none⟩
    | .punctuator .questionDot =>
      advance
      return .again ⟨← g.optionalSuffix object start, none⟩
    | .punctuator .leftBracket =>
      advance
      let property ← g.computedMember
      return .again ⟨← node (.memberExpression object property true false) start, none⟩
    | .punctuator .leftParen =>
      let newline := (← current).newlineBefore
      let mayBeHead := startsAsync && object.name? = some Keyword.kwAsync.text && !newline
      return .again (← g.call object start mayBeHead)
    | .template .. =>
      let quasi ← g.template
      return .again ⟨← node (.taggedTemplate object quasi) start, none⟩
    | _ => return .finish operand

/-- The members of what is made by `new`: a call ends them. -/
def newCallee (g : Grammar) : Parser Node := do
  let start ← here
  let first ← if ← seesWord .kwNew then g.newExpression else pure (← g.primary).node
  loop first fun callee => do
    if ← eat .dot then
      let property ← memberName
      return .again (← node (.memberExpression callee property false false) start)
    if ← eat .leftBracket then
      let property ← g.computedMember
      return .again (← node (.memberExpression callee property true false) start)
    return .finish callee

/-- The making of an object, or the property `new.target`. -/
def newExpressionRule (g : Grammar) : Parser Node := do
  let start ← here
  advance
  if ← eat .dot then
    expectName "target"
    return ← node (.metaProperty .newTarget) start
  let callee ← g.newCallee
  let args ← if ← sees .leftParen then g.arguments else pure []
  node (.newExpression callee args) start

/-! ## Operators -/

/-- An operand with an update behind it, which has to stand on the same line. -/
def postfixUpdate (g : Grammar) : Parser Operand := do
  let start ← here
  let operand ← leftHandSideRule g
  let token ← current
  match UpdateOperator.ofToken? token.kind, token.newlineBefore with
  | some operator, false =>
    unless operand.node.isSimpleTarget do fail .invalidPostfixTarget
    advance
    return ⟨← node (.updateExpression operator false operand.node) start, none⟩
  | _, _ => return operand

/-- An operand with the operators in front of it. -/
def unaryRule (g : Grammar) : Parser Operand := do
  let start ← here
  let kind := (← current).kind
  if let some operator := UnaryOperator.ofToken? kind then
    advance
    let argument ← g.unary
    return ⟨← node (.unaryExpression operator argument.node) start, none⟩
  if let some operator := UpdateOperator.ofToken? kind then
    advance
    let argument ← g.unary
    unless argument.node.isSimpleTarget do fail .invalidPrefixTarget
    return ⟨← node (.updateExpression operator true argument.node) start, none⟩
  if ← eatWord .kwAwait then
    let argument ← g.unary
    return ⟨← node (.awaitExpression argument.node) start, none⟩
  g.postfixUpdate

/-- The binary operator that the current token stands for here. -/
def binaryOperator? : Parser (Option BinaryOperator) := do
  let operator := BinaryOperator.ofToken? (← current).kind
  if operator = some .isIn && !(← read).allowIn then return none
  return operator

/-- The least precedence of the operators in the right operand of an operator. -/
def rightPrecedence (operator : BinaryOperator) : Nat :=
  if operator = .exponent then operator.precedence else operator.precedence + 1

/-- Operands joined by operators of at least the precedence `least`. -/
def binaryRule (g : Grammar) (least : Nat) : Parser Operand := do
  let start ← here
  let first ← unaryRule g
  loop first fun left => do
    match ← binaryOperator? with
    | some operator =>
      if operator.precedence < least then return .finish left
      advance
      let right ← g.binary (rightPrecedence operator)
      return .again ⟨← node (.binaryExpression operator left.node right.node) start, none⟩
    | none => return .finish left

/-- A choice between two values, or an operand that is none. -/
def conditional (g : Grammar) : Parser Operand := do
  let start ← here
  let test ← binaryRule g 1
  unless ← eat .question do return test
  let consequent ← withIn true g.assignment
  expect .colon
  let alternate ← g.assignment
  return ⟨← node (.conditionalExpression test.node consequent alternate) start, none⟩

/-! ## Arrow functions -/

/-- The arrow and the body of a function with the given parameters. -/
def arrowBody (g : Grammar) (start : Nat) (params : List Node) (isAsync : Bool) : Parser Node := do
  expect .arrow
  let (body, isExpression) ← inFunction false do
    if ← sees .leftBrace then return (← g.block, false) else return (← g.assignment, true)
  node (.arrowFunction params body isExpression isAsync) start

/-- Whether `async` starts an arrow function with a name for its parameter: the name stands on the
same line, and an arrow follows it. -/
def startsAsyncArrow : Parser Bool := do
  unless ← seesWord .kwAsync do return false
  let (param, behind) := nextToken (← get).behind
  match param.kind, param.newlineBefore with
  | .identifier _, false => return (nextToken behind).1.kind = .punctuator .arrow
  | _, _ => return false

/-- The arrow function whose head was read as an operand. -/
def arrowBehind (g : Grammar) (start : Nat) (head : Operand) : Parser Node := do
  let some items := head.items | unexpected
  if (← current).newlineBefore then unexpected
  let isAsync := match head.node.kind with
    | .callExpression .. => true
    | _ => false
  let some params := items.mapM (·.toParameter?) | fail .invalidParameter
  g.arrowBody start params isAsync

/-! ## Assignments -/

/-- A value of a generator. It may be left out in front of what cannot start one. -/
def yieldExpression (g : Grammar) : Parser Node := do
  let start ← here
  advance
  let token ← current
  let isLast := token.newlineBefore || match token.kind with
    | .punctuator .rightParen | .punctuator .rightBracket | .punctuator .rightBrace
    | .punctuator .comma | .punctuator .semicolon | .punctuator .colon | .eof => true
    | _ => false
  if isLast then return ← node (.yieldExpression none false) start
  let delegate ← eat .star
  let argument ← g.assignment
  node (.yieldExpression (some argument) delegate) start

/-- The target of an assignment. Only a plain assignment takes values apart. -/
def assignmentTarget (operator : AssignmentOperator) (left : Node) : Parser Node :=
  if operator = .assign then
    match left.toTarget? with
    | some target => pure target
    | none => fail .invalidPattern
  else if left.isSimpleTarget then pure left
  else fail .invalidAssignmentTarget

/-- An expression without a comma at the top. -/
def assignmentRule (g : Grammar) : Parser Node := do
  let start ← here
  if (← seesWord .kwYield) && (← read).inGenerator then return ← g.yieldExpression
  if ← startsAsyncArrow then
    advance
    let param ← bindingName
    return ← g.arrowBody start [param] true
  if (← atBindingName) && (← peek).kind = .punctuator .arrow then
    let param ← bindingName
    return ← g.arrowBody start [param] false
  let left ← g.conditional
  if ← sees .arrow then return ← g.arrowBehind start left
  match AssignmentOperator.ofToken? (← current).kind with
  | none => return left.node
  | some operator =>
    let target ← assignmentTarget operator left.node
    advance
    let right ← g.assignment
    node (.assignmentExpression operator target right) start

end Grammar

end EsModule.Syntax
