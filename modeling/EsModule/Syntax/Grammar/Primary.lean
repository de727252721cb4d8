import EsModule.Syntax.Grammar.Function

/-!
# Operands that start an expression

Names, literals, templates, arrays, objects, functions, classes, imports at run time, and lists in
parentheses. Such a list may turn out to be the parameters of an arrow function: its items are kept
beside the operand, and what only parameters allow (no items, a trailing comma, a rest) makes an
arrow compulsory.
-/

namespace EsModule.Syntax

namespace Grammar

open EsModule.Syntax.Parser

/-- A spread, or an expression without a comma at the top. -/
def spreadOrAssignment (g : Grammar) : Parser Node := do
  let start ← here
  if ← eat .ellipsis then
    let argument ← g.assignment
    return ← node (.spreadElement argument) start
  g.assignment

/-- A regular expression, whose opening mark was read as an operator. -/
def regExp : Parser Node := do
  let start ← here
  match (← rescan rescanRegExp).kind with
  | .regExp pattern flags =>
    advance
    node (.literal (.regExp pattern flags)) start
  | _ => unexpected

/-- A template from the current chunk on. The brace that ends a substitution opens the next
chunk. -/
def template (g : Grammar) : Parser Node := do
  let start ← here
  let (quasis, expressions) ← loop ([], []) fun (quasis, expressions) => do
    let .template chunk closes := (← current).kind | unexpected
    advance
    let quasis := quasis ++ [chunk]
    if closes then return .finish (quasis, expressions)
    let e ← withIn true g.expression
    unless ← sees .rightBrace do unexpected
    match (← rescan rescanTemplate).kind with
    | .invalid cause => fail (.lexical cause)
    | _ => return .again (quasis, expressions ++ [e])
  node (.templateLiteral quasis expressions) start

/-- An array, where a comma with nothing in front of it leaves a hole. -/
def arrayLiteral (g : Grammar) : Parser Node := do
  let start ← here
  advance
  let elements ← withIn true <| listUntil (· = .punctuator .rightBracket) do
    if ← eat .comma then return ([none], true)
    let element ← g.spreadOrAssignment
    commaUnless .rightBracket
    return ([some element], true)
  expect .rightBracket
  node (.arrayExpression elements) start

/-- A member of an object: a spread, a method, a key with a value, or a name alone. -/
def objectMember (g : Grammar) : Parser Node := do
  let start ← here
  if ← eat .ellipsis then
    let argument ← g.assignment
    return ← node (.spreadElement argument) start
  let modifiers ← modifiers
  let mayBeShort ← atBindingName
  let (key, computed) ← g.propertyKey
  let kind := modifiers.accessor
  if kind ≠ .plain || modifiers.isAsync || modifiers.isGenerator || (← sees .leftParen) then
    let value ← g.method modifiers.isAsync modifiers.isGenerator
    return ← node (.property key value kind computed false (kind = .plain)) start
  if ← eat .colon then
    let value ← g.assignment
    return ← node (.property key value kind computed false false) start
  if !mayBeShort || computed then unexpected
  let value ← g.shorthandValue key
  node (.property key value kind false true false) start

/-- An object. -/
def objectLiteral (g : Grammar) : Parser Node := do
  let start ← here
  advance
  let properties ← withIn true <| listUntil (· = .punctuator .rightBrace) do
    let property ← g.objectMember
    commaUnless .rightBrace
    return ([property], true)
  expect .rightBrace
  node (.objectExpression properties) start

/-- The items of a list in parentheses, each with whether it makes an arrow compulsory. -/
def parenthesizedItems (g : Grammar) : Parser (List (Node × Bool)) :=
  withIn true <| listUntil (· = .punctuator .rightParen) do
    let start ← here
    if ← eat .ellipsis then return ([(← restElement start g.bindingTarget, true)], false)
    let item ← g.assignment
    let comma ← eat .comma
    return ([(item, comma && (← sees .rightParen))], comma)

/-- A list in parentheses. A single item stands for itself. -/
def parenthesized (g : Grammar) : Parser Operand := do
  let start ← here
  advance
  let marked ← g.parenthesizedItems
  expect .rightParen
  let items := marked.map (·.1)
  let needsArrow := items.isEmpty || marked.any (·.2)
  if needsArrow && !(← sees .arrow) then unexpected
  match items, needsArrow with
  | [item], false => return ⟨item, some items⟩
  | _, _ => return ⟨← node (.sequenceExpression items) start, some items⟩

/-- An import at run time, or the property `import.meta`. -/
def importExpression (g : Grammar) : Parser Node := do
  let start ← here
  advance
  if ← eat .dot then
    expectName "meta"
    return ← node (.metaProperty .importMeta) start
  expect .leftParen
  let source ← withIn true g.assignment
  let _ ← eat .comma
  expect .rightParen
  node (.importExpression source) start

/-- The kind of a node that consists of one token. -/
def atomKind? (kind : TokenKind) (text : String) : Option (Kind Node) :=
  match kind with
  | .keyword .kwThis => some .thisExpression
  | .keyword .kwSuper => some .superExpression
  | .identifier name => some (.identifier name)
  | .keyword .kwAsync => some (.identifier Keyword.kwAsync.text)
  | .keyword .kwTrue => some (.literal (.boolean true))
  | .keyword .kwFalse => some (.literal (.boolean false))
  | .keyword .kwNull => some (.literal .null)
  | _ => literalKey? kind text

/-- Whether the word `async` belongs to the function that follows it on the same line. -/
def startsAsyncFunction : Parser Bool := do
  let next ← peek
  return (← seesWord .kwAsync) && next.kind = .keyword .kwFunction && !next.newlineBefore

/-- The operand at the start of an expression. -/
def primary (g : Grammar) : Parser Operand := do
  let start ← here
  if ← startsAsyncFunction then
    advance
    let f ← g.function true none
    return ⟨← node (.functionExpression f) start, none⟩
  match (← current).kind with
  | .punctuator .slash | .punctuator .slashEqual => return ⟨← regExp, none⟩
  | .template .. => return ⟨← g.template, none⟩
  | .punctuator .leftBracket => return ⟨← g.arrayLiteral, none⟩
  | .punctuator .leftBrace => return ⟨← g.objectLiteral, none⟩
  | .punctuator .leftParen => g.parenthesized
  | .keyword .kwFunction =>
    let f ← g.function false none
    return ⟨← node (.functionExpression f) start, none⟩
  | .keyword .kwClass => return ⟨← g.classRule .classExpression none, none⟩
  | .keyword .kwImport => return ⟨← g.importExpression, none⟩
  | kind =>
    match atomKind? kind (← currentText) with
    | some atom =>
      advance
      return ⟨← node atom start, none⟩
    | none => unexpected

end Grammar

end EsModule.Syntax
