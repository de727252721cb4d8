import EsModule.Syntax.Grammar.Target

/-!
# Functions and classes

The rules for blocks, for parameters and bodies of functions, and for classes. They are shared by
declarations, by expressions, and by the methods of objects and classes.
-/

namespace EsModule.Syntax

namespace Grammar

open EsModule.Syntax.Parser

/-- Statements between braces. -/
def blockBody (g : Grammar) : Parser (List Node) := do
  expect .leftBrace
  let body ← listUntil (fun kind => kind = .punctuator .rightBrace || kind = .eof) do
    return ([← g.statement], true)
  expect .rightBrace
  return body

/-- A block. -/
def block (g : Grammar) : Parser Node := do
  let start ← here
  let body ← g.blockBody
  node (.blockStatement body) start

/-- The parameters of a function, between parentheses. -/
def parameters (g : Grammar) : Parser (List Node) := do
  expect .leftParen
  let params ← listUntil (· = .punctuator .rightParen) do
    let start ← here
    if ← eat .ellipsis then return ([← restElement start g.bindingTarget], false)
    let param ← g.bindingElement
    return ([param], ← eat .comma)
  expect .rightParen
  return params

/-- The parameters and the body of a function. -/
def functionRest (g : Grammar) (isGenerator : Bool) : Parser (List Node × Node) :=
  inFunction isGenerator do
    let params ← g.parameters
    return (params, ← g.block)

/-- The name of a function or class. If it is missing, `missing` says whether that is a fault. -/
def optionalName (missing : Option SyntaxFault) : Parser (Option Node) := do
  if ← atBindingName then return some (← bindingName)
  match missing with
  | some fault => fail fault
  | none => return none

/-- A function from its word on. -/
def function (g : Grammar) (isAsync : Bool) (missingName : Option SyntaxFault) :
    Parser (Function Node) := do
  expectWord .kwFunction
  let isGenerator ← eat .star
  let name ← optionalName missingName
  let (params, body) ← g.functionRest isGenerator
  return ⟨name, params, body, isAsync, isGenerator⟩

/-- A function as a statement. If it is `async`, that word has been read. -/
def functionDeclaration (g : Grammar) (isAsync : Bool) (missingName : Option SyntaxFault) :
    Parser Node := do
  let start ← if isAsync then pure (← get).previous.start else here
  let f ← g.function isAsync missingName
  node (.functionDeclaration f) start

/-- A method from its parameters on, as the function that it is. -/
def method (g : Grammar) (isAsync isGenerator : Bool) : Parser Node := do
  let start ← here
  let (params, body) ← g.functionRest isGenerator
  node (.functionExpression ⟨none, params, body, isAsync, isGenerator⟩) start

/-- Whether the current token, which could modify the member of an object or class that follows, is
the member's name itself. The token behind it tells. -/
def modifierIsName : Parser Bool := do
  match (← peek).kind with
  | .punctuator .leftParen | .punctuator .equal | .punctuator .semicolon | .punctuator .rightBrace
  | .punctuator .comma | .punctuator .colon => return true
  | _ => return false

/-- The words and marks in front of the key of a member. -/
structure Modifiers where
  /-- Whether the member is an `async` function. -/
  isAsync : Bool
  /-- Whether it is a generator. -/
  isGenerator : Bool
  /-- Whether it gets or sets a value, and which. -/
  accessor : PropertyKind

/-- The words and marks in front of the key of a member. `get` and `set` go with neither of the
others. -/
def modifiers : Parser Modifiers := do
  let isAsync ← eatIf do
    return (← seesWord .kwAsync) && !(← modifierIsName) && !(← peek).newlineBefore
  let isGenerator ← eat .star
  if isAsync || isGenerator || (← modifierIsName) then return ⟨isAsync, isGenerator, .plain⟩
  if ← eatName "get" then return ⟨isAsync, isGenerator, .getter⟩
  if ← eatName "set" then return ⟨isAsync, isGenerator, .setter⟩
  return ⟨isAsync, isGenerator, .plain⟩

/-- The kind of a method of a class. A plain method called `constructor` makes the objects. -/
def methodKind (accessor : PropertyKind) (key : Node) (computed isStatic : Bool) : MethodKind :=
  match accessor with
  | .getter => .getter
  | .setter => .setter
  | .plain =>
    if !computed && !isStatic && key.name? = some "constructor" then .constructor else .method

/-- A member of a class. -/
def classMember (g : Grammar) : Parser Node := do
  let start ← here
  let isStatic ← eatIf do return (← seesWord .kwStatic) && !(← modifierIsName)
  if isStatic && (← sees .leftBrace) then
    let body ← inFunction false g.blockBody
    return ← node (.staticBlock body) start
  let modifiers ← modifiers
  let (key, computed) ← g.propertyKey
  if ← sees .leftParen then
    let value ← g.method modifiers.isAsync modifiers.isGenerator
    let kind := methodKind modifiers.accessor key computed isStatic
    return ← node (.methodDefinition key value kind computed isStatic) start
  let value ←
    if ← eat .equal then pure (some (← inFunction false g.assignment)) else pure none
  semicolon
  node (.propertyDefinition key value computed isStatic) start

/-- The body of a class, where semicolons part members or stand alone. -/
def classBody (g : Grammar) : Parser Node := do
  let start ← here
  expect .leftBrace
  let members ← listUntil (fun kind => kind = .punctuator .rightBrace || kind = .eof) do
    if ← eat .semicolon then return ([], true)
    return ([← g.classMember], true)
  expect .rightBrace
  node (.classBody members) start

/-- A class from its word on, as the kind of node that `kind` makes of it. -/
def classRule (g : Grammar) (kind : Class Node → Kind Node) (missingName : Option SyntaxFault) :
    Parser Node := do
  let start ← here
  expectWord .kwClass
  let name ← optionalName missingName
  let parent ←
    if ← eatWord .kwExtends then pure (some (← g.leftHandSide).node) else pure none
  let body ← g.classBody
  node (kind ⟨name, parent, body⟩) start

end Grammar

end EsModule.Syntax
