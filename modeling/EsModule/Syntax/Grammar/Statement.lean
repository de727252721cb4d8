import EsModule.Syntax.Grammar.Expression

/-!
# Statements

Blocks, declarations of variables, choices, loops, jumps and handlers.
-/

namespace EsModule.Syntax

namespace Grammar

open EsModule.Syntax.Parser

/-- The word that declares variables, if the token is one. -/
def variableKind? : TokenKind → Option VariableKind
  | .keyword .kwVar => some .varKind
  | .keyword .kwLet => some .letKind
  | .keyword .kwConst => some .constKind
  | _ => none

/-- One target of a declaration and its initial value. -/
def declarator (g : Grammar) : Parser Node := do
  let start ← here
  let target ← g.bindingTarget
  let init ← if ← eat .equal then pure (some (← g.assignment)) else pure none
  node (.variableDeclarator target init) start

/-- A declaration of variables without the semicolon at its end. -/
def variableDeclaration (g : Grammar) (kind : VariableKind) : Parser Node := do
  let start ← here
  advance
  let first ← g.declarator
  let declarators ← loop [first] fun ds => do
    if ← eat .comma then return .again (ds ++ [← g.declarator]) else return .finish ds
  node (.variableDeclaration kind declarators) start

/-- A declaration of variables as a statement, whose span takes in the semicolon. -/
def variableStatement (g : Grammar) (kind : VariableKind) : Parser Node := do
  let declaration ← g.variableDeclaration kind
  semicolon
  nodeAt declaration.kind (declaration.span.through (← get).previous)

/-- An expression as a statement. -/
def expressionStatement (g : Grammar) : Parser Node := do
  let start ← here
  let e ← g.expression
  semicolon
  node (.expressionStatement e) start

/-- An expression between parentheses, as choices and loops have it. -/
def head (g : Grammar) : Parser Node := do
  expect .leftParen
  let e ← withIn true g.expression
  expect .rightParen
  return e

/-- A choice. An `else` belongs to the nearest choice in front of it. -/
def ifStatement (g : Grammar) : Parser Node := do
  let start ← here
  advance
  let test ← g.head
  let consequent ← g.statement
  let alternate ← if ← eatWord .kwElse then pure (some (← g.statement)) else pure none
  node (.ifStatement test consequent alternate) start

/-- A case of a choice among cases. -/
def switchCase (g : Grammar) : Parser Node := do
  let start ← here
  let test ← if ← eatWord .kwCase then pure (some (← withIn true g.expression)) else do
    expectWord .kwDefault
    pure none
  expect .colon
  let body ← listUntil
    (fun kind => kind = .keyword .kwCase || kind = .keyword .kwDefault ||
      kind = .punctuator .rightBrace || kind = .eof) do
    return ([← g.statement], true)
  node (.switchCase test body) start

/-- A choice among cases. -/
def switchStatement (g : Grammar) : Parser Node := do
  let start ← here
  advance
  let discriminant ← g.head
  expect .leftBrace
  let cases ← listUntil (fun kind => kind = .punctuator .rightBrace || kind = .eof) do
    return ([← g.switchCase], true)
  expect .rightBrace
  node (.switchStatement discriminant cases) start

/-- A loop that tests first. -/
def whileStatement (g : Grammar) : Parser Node := do
  let start ← here
  advance
  let test ← g.head
  let body ← g.statement
  node (.whileStatement test body) start

/-- A loop that tests last. The semicolon at its end may always be left out. -/
def doWhileStatement (g : Grammar) : Parser Node := do
  let start ← here
  advance
  let body ← g.statement
  expectWord .kwWhile
  let test ← g.head
  let _ ← eat .semicolon
  node (.doWhileStatement body test) start

/-- The first part of the head of a `for` loop, in which `in` is no operator. -/
def forInit (g : Grammar) : Parser (Option Node) := do
  let kind := (← current).kind
  if kind = .punctuator .semicolon then return none
  match variableKind? kind with
  | some kind => return some (← withIn false (g.variableDeclaration kind))
  | none => return some (← withIn false g.expression)

/-- What the head of a loop over keys or values assigns to. -/
def forTarget (left : Node) : Parser Node :=
  match left.kind, left.toTarget? with
  | .variableDeclaration .., _ => pure left
  | _, some target => pure target
  | _, none => fail .invalidPattern

/-- A loop over keys or values, from the word `in` or `of` on. -/
def forEach (g : Grammar) (start : Nat) (left : Node) (isOf awaits : Bool) : Parser Node := do
  let left ← forTarget left
  advance
  let right ← withIn true (if isOf then g.assignment else g.expression)
  expect .rightParen
  let body ← g.statement
  node (if isOf then .forOfStatement left right body awaits else .forInStatement left right body)
    start

/-- A part of the head of a `for` loop that may be missing. -/
def forPart (g : Grammar) (ends : Punctuator) : Parser (Option Node) := do
  if ← sees ends then return none
  return some (← withIn true g.expression)

/-- A `for` loop of any form. -/
def forStatement (g : Grammar) : Parser Node := do
  let start ← here
  advance
  let awaits ← eatWord .kwAwait
  expect .leftParen
  let init ← g.forInit
  let isOf ← seesName "of"
  let isIn ← seesWord .kwIn
  match init, isOf || isIn with
  | some left, true => g.forEach start left isOf awaits
  | _, _ =>
    expect .semicolon
    let test ← g.forPart .semicolon
    expect .semicolon
    let update ← g.forPart .rightParen
    expect .rightParen
    let body ← g.statement
    node (.forStatement init test update body) start

/-- The end of a function. A value has to start on the same line. -/
def returnStatement (g : Grammar) : Parser Node := do
  let start ← here
  advance
  let token ← current
  let isBare := token.newlineBefore || token.kind = .punctuator .semicolon ||
    token.kind = .punctuator .rightBrace || token.kind = .eof
  let argument ← if isBare then pure none else pure (some (← g.expression))
  semicolon
  node (.returnStatement argument) start

/-- A jump to the label behind it on the same line, or to the nearest statement that it can mean. -/
def jumpStatement (kind : Option String → Kind Node) : Parser Node := do
  let start ← here
  advance
  let token ← current
  let label ← match token.kind, token.newlineBefore with
    | .identifier label, false => do
      advance
      pure (some label)
    | _, _ => pure none
  semicolon
  node (kind label) start

/-- An exception, whose value has to start on the same line. -/
def throwStatement (g : Grammar) : Parser Node := do
  let start ← here
  advance
  if (← current).newlineBefore then fail .newlineAfterThrow
  let argument ← g.expression
  semicolon
  node (.throwStatement argument) start

/-- The handler of exceptions, with or without a target for the exception. -/
def catchClause (g : Grammar) : Parser Node := do
  let start ← here
  advance
  let param ← if ← eat .leftParen then do
      let param ← g.bindingTarget
      expect .rightParen
      pure (some param)
    else pure none
  let body ← g.block
  node (.catchClause param body) start

/-- A block whose exceptions are handled, or that is followed by another one in any case. -/
def tryStatement (g : Grammar) : Parser Node := do
  let start ← here
  advance
  let block ← g.block
  let handler ← if ← seesWord .kwCatch then pure (some (← g.catchClause)) else pure none
  let finalizer ← if ← eatWord .kwFinally then pure (some (← g.block)) else pure none
  if handler.isNone && finalizer.isNone then fail .missingHandler
  node (.tryStatement block handler finalizer) start

/-- A statement with a label. -/
def labeledStatement (g : Grammar) (label : String) : Parser Node := do
  let start ← here
  advance
  advance
  let body ← g.statement
  node (.labeledStatement label body) start

/-- A statement. -/
def statementRule (g : Grammar) : Parser Node := do
  let start ← here
  if ← startsAsyncFunction then
    advance
    return ← g.functionDeclaration true (some .missingFunctionName)
  match (← current).kind with
  | .punctuator .leftBrace => g.block
  | .punctuator .semicolon =>
    advance
    node .emptyStatement start
  | .keyword .kwVar => g.variableStatement .varKind
  | .keyword .kwLet => g.variableStatement .letKind
  | .keyword .kwConst => g.variableStatement .constKind
  | .keyword .kwFunction => g.functionDeclaration false (some .missingFunctionName)
  | .keyword .kwClass => g.classRule .classDeclaration (some .missingClassName)
  | .keyword .kwIf => g.ifStatement
  | .keyword .kwSwitch => g.switchStatement
  | .keyword .kwWhile => g.whileStatement
  | .keyword .kwDo => g.doWhileStatement
  | .keyword .kwFor => g.forStatement
  | .keyword .kwReturn => g.returnStatement
  | .keyword .kwBreak => jumpStatement .breakStatement
  | .keyword .kwContinue => jumpStatement .continueStatement
  | .keyword .kwThrow => g.throwStatement
  | .keyword .kwTry => g.tryStatement
  | .keyword .kwWith => fail .withStatement
  | .keyword .kwDebugger =>
    advance
    semicolon
    node .debuggerStatement start
  | .identifier label =>
    if (← peek).kind = .punctuator .colon then g.labeledStatement label
    else g.expressionStatement
  | _ => g.expressionStatement

end Grammar

end EsModule.Syntax
