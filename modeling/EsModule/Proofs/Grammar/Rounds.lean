import EsModule.Syntax.Parse

/-!
# The repetitions of the rules

Every rule that repeats something does so by `Parser.loop`, and lists between brackets by
`Parser.listUntil`, which is a loop too. Here each round has a name (`Grammar.IsRound`), and for
each rule an equation says which rounds it takes.
-/

namespace EsModule.Syntax

open EsModule.Text EsModule.Syntax.Parser

namespace Grammar

variable (g : Grammar)

/-! ## Rounds -/

/-- One more expression of a sequence. -/
def itemRound (items : List Node) : Parser (Round (List Node) (List Node)) := do
  if ← eat .comma then return .again (items ++ [← g.assignment]) else return .finish items

/-- One chunk of a template, and the value behind it. -/
def templateRound : List Chunk × List Node →
    Parser (Round (List Chunk × List Node) (List Chunk × List Node)) :=
  fun (quasis, expressions) => do
    let .template chunk closes := (← current).kind | unexpected
    advance
    let quasis := quasis ++ [chunk]
    if closes then return .finish (quasis, expressions)
    let e ← withIn true g.expression
    unless ← sees .rightBrace do unexpected
    match (← rescan rescanTemplate).kind with
    | .invalid cause => fail (.lexical cause)
    | _ => return .again (quasis, expressions ++ [e])

/-- One more member or call of an operand. -/
def memberRound (start : Nat) (startsAsync : Bool) (operand : Operand) :
    Parser (Round Operand Operand) := do
  let object := operand.node
  match (← current).kind with
  | .punctuator .dot =>
    advance
    let property ← memberName
    return .again ⟨← node (.memberExpression object property false false) start, none⟩
  | .punctuator .questionDot =>
    advance
    return .again ⟨← g.optionalSuffix object start, none⟩
  | .punctuator .leftBracket =>
    advance
    let property ← g.computedMember
    return .again ⟨← node (.memberExpression object property true false) start, none⟩
  | .punctuator .leftParen =>
    let newline := (← current).newlineBefore
    let mayBeHead := startsAsync && object.name? = some Keyword.kwAsync.text && !newline
    return .again (← g.call object start mayBeHead)
  | .template .. =>
    let quasi ← g.template
    return .again ⟨← node (.taggedTemplate object quasi) start, none⟩
  | _ => return .finish operand

/-- One more member of what is made by `new`. -/
def calleeRound (start : Nat) (callee : Node) : Parser (Round Node Node) := do
  if ← eat .dot then
    let property ← memberName
    return .again (← node (.memberExpression callee property false false) start)
  if ← eat .leftBracket then
    let property ← g.computedMember
    return .again (← node (.memberExpression callee property true false) start)
  return .finish callee

/-- One more operator and its right operand. -/
def operatorRound (least start : Nat) (left : Operand) : Parser (Round Operand Operand) := do
  match ← binaryOperator? with
  | some operator =>
    if operator.precedence < least then return .finish left
    advance
    let right ← g.binary (rightPrecedence operator)
    return .again ⟨← node (.binaryExpression operator left.node right.node) start, none⟩
  | none => return .finish left

/-- One more target of a declaration. -/
def declaratorRound (ds : List Node) : Parser (Round (List Node) (List Node)) := do
  if ← eat .comma then return .again (ds ++ [← g.declarator]) else return .finish ds

/-- One more round over the items of a list. -/
def listRound {α : Type} (ends : TokenKind → Bool) (item : Parser (List α × Bool))
    (items : List α) : Parser (Round (List α) (List α)) := do
  if ends (← current).kind then return .finish items
  let (more, goesOn) ← item
  if goesOn then return .again (items ++ more) else return .finish (items ++ more)

/-! ## Items of lists -/

/-- One item of a list in which nothing stands between the items. -/
def plainItem {α : Type} (item : Parser α) : Parser (List α × Bool) := do return ([← item], true)

/-- One entry of a list, and the comma behind it. -/
def entryItem {α : Type} (entry : Parser α) : Parser (List α × Bool) := do
  let e ← entry
  return ([e], ← eat .comma)

/-- One element of a target that takes a list apart. -/
def elementItem : Parser (List (Option Node) × Bool) := do
  if ← eat .comma then return ([none], true)
  let itemStart ← here
  if ← eat .ellipsis then return ([some (← restElement itemStart g.bindingTarget)], false)
  let element ← g.bindingElement
  commaUnless .rightBracket
  return ([some element], true)

/-- One member of a target that takes an object apart. -/
def propertyItem : Parser (List Node × Bool) := do
  let itemStart ← here
  if ← eat .ellipsis then return ([← restElement itemStart bindingName], false)
  let property ← g.patternProperty itemStart
  commaUnless .rightBrace
  return ([property], true)

/-- One parameter of a function. -/
def parameterItem : Parser (List Node × Bool) := do
  let start ← here
  if ← eat .ellipsis then return ([← restElement start g.bindingTarget], false)
  let param ← g.bindingElement
  return ([param], ← eat .comma)

/-- One member of a class, or a semicolon of its own. -/
def classItem : Parser (List Node × Bool) := do
  if ← eat .semicolon then return ([], true)
  return ([← g.classMember], true)

/-- One element of an array. -/
def arrayItem : Parser (List (Option Node) × Bool) := do
  if ← eat .comma then return ([none], true)
  let element ← g.spreadOrAssignment
  commaUnless .rightBracket
  return ([some element], true)

/-- One member of an object. -/
def objectItem : Parser (List Node × Bool) := do
  let property ← g.objectMember
  commaUnless .rightBrace
  return ([property], true)

/-- One item of a list in parentheses. -/
def parenthesizedItem : Parser (List (Node × Bool) × Bool) := do
  let start ← here
  if ← eat .ellipsis then return ([(← restElement start g.bindingTarget, true)], false)
  let item ← g.assignment
  let comma ← eat .comma
  return ([(item, comma && (← sees .rightParen))], comma)

/-! ## The rules that repeat -/

variable {g}

theorem listUntil_eq {α : Type} (ends : TokenKind → Bool) (item : Parser (List α × Bool)) :
    listUntil ends item = loop [] (listRound ends item) := rfl

theorem expression_eq : g.expression = (do
    let start ← here
    let first ← g.assignment
    unless ← sees .comma do return first
    let all ← loop [first] g.itemRound
    node (.sequenceExpression all) start) := rfl

theorem template_eq : g.template = (do
    let start ← here
    let (quasis, expressions) ← loop ([], []) g.templateRound
    node (.templateLiteral quasis expressions) start) := rfl

theorem leftHandSideRule_eq : g.leftHandSideRule = (do
    let start ← here
    let startsAsync ← seesWord .kwAsync
    let first : Operand ←
      if ← seesWord .kwNew then pure ⟨← g.newExpression, none⟩ else g.primary
    loop first (g.memberRound start startsAsync)) := rfl

theorem newCallee_eq : g.newCallee = (do
    let start ← here
    let first ← if ← seesWord .kwNew then g.newExpression else pure (← g.primary).node
    loop first (g.calleeRound start)) := rfl

theorem binaryRule_eq (least : Nat) : g.binaryRule least = (do
    let start ← here
    let first ← unaryRule g
    loop first (g.operatorRound least start)) := rfl

theorem variableDeclaration_eq (kind : VariableKind) : g.variableDeclaration kind = (do
    let start ← here
    advance
    let first ← g.declarator
    let declarators ← loop [first] g.declaratorRound
    node (.variableDeclaration kind declarators) start) := rfl

theorem arrayPattern_eq : g.arrayPattern = (do
    let start ← here
    advance
    let elements ← listUntil (· = .punctuator .rightBracket) g.elementItem
    expect .rightBracket
    node (.arrayPattern elements) start) := rfl

theorem objectPattern_eq : g.objectPattern = (do
    let start ← here
    advance
    let properties ← listUntil (· = .punctuator .rightBrace) g.propertyItem
    expect .rightBrace
    node (.objectPattern properties) start) := rfl

theorem blockBody_eq : g.blockBody = (do
    expect .leftBrace
    let body ← listUntil (fun kind => kind = .punctuator .rightBrace || kind = .eof)
      (plainItem g.statement)
    expect .rightBrace
    return body) := rfl

theorem parameters_eq : g.parameters = (do
    expect .leftParen
    let params ← listUntil (· = .punctuator .rightParen) g.parameterItem
    expect .rightParen
    return params) := rfl

theorem classBody_eq : g.classBody = (do
    let start ← here
    expect .leftBrace
    let members ← listUntil (fun kind => kind = .punctuator .rightBrace || kind = .eof) g.classItem
    expect .rightBrace
    node (.classBody members) start) := rfl

theorem arrayLiteral_eq : g.arrayLiteral = (do
    let start ← here
    advance
    let elements ← withIn true (listUntil (· = .punctuator .rightBracket) g.arrayItem)
    expect .rightBracket
    node (.arrayExpression elements) start) := rfl

theorem objectLiteral_eq : g.objectLiteral = (do
    let start ← here
    advance
    let properties ← withIn true (listUntil (· = .punctuator .rightBrace) g.objectItem)
    expect .rightBrace
    node (.objectExpression properties) start) := rfl

theorem parenthesizedItems_eq : g.parenthesizedItems =
    withIn true (listUntil (· = .punctuator .rightParen) g.parenthesizedItem) := rfl

theorem arguments_eq : g.arguments = (do
    expect .leftParen
    let args ← withIn true
      (listUntil (· = .punctuator .rightParen) (entryItem g.spreadOrAssignment))
    expect .rightParen
    return args) := rfl

/-- Whether a token ends the statements of a case. -/
def endsCase (kind : TokenKind) : Bool :=
  kind = .keyword .kwCase || kind = .keyword .kwDefault || kind = .punctuator .rightBrace ||
    kind = .eof

/-- A case from the colon on. -/
def caseRest (g : Grammar) (start : Nat) (test : Option Node) : Parser Node := do
  expect .colon
  let body ← listUntil endsCase (plainItem g.statement)
  node (.switchCase test body) start

theorem switchCase_eq : g.switchCase = (do
    let start ← here
    let test ← if ← eatWord .kwCase then pure (some (← withIn true g.expression)) else do
      expectWord .kwDefault
      pure none
    g.caseRest start test) := rfl

theorem switchStatement_eq : g.switchStatement = (do
    let start ← here
    advance
    let discriminant ← g.head
    expect .leftBrace
    let cases ← listUntil (fun kind => kind = .punctuator .rightBrace || kind = .eof)
      (plainItem g.switchCase)
    expect .rightBrace
    node (.switchStatement discriminant cases) start) := rfl

theorem importList_eq : importList = (do
    let start ← here
    if ← eat .star then
      expectName "as"
      let binding ← bindingName
      return [← node (.importNamespaceSpecifier binding) start]
    if ← eat .leftBrace then
      let specifiers ← listUntil (· = .punctuator .rightBrace) (entryItem importSpecifier)
      expect .rightBrace
      return specifiers
    unexpected) := rfl

theorem exportList_eq (start : Nat) : exportList start = (do
    advance
    let marked ← listUntil (· = .punctuator .rightBrace) (entryItem exportSpecifier)
    expect .rightBrace
    let source ← if ← eatName "from" then pure (some (← moduleSpecifier)) else
      match marked.findSome? (·.2) with
      | some name => fail (.reservedWord name)
      | none => pure none
    semicolon
    node (.exportNamedDeclaration none (marked.map (·.1)) source) start) := rfl

theorem moduleBody_eq : g.moduleBody = listUntil (· = .eof) (plainItem g.moduleItem) := rfl

end Grammar

/-! ## Modules -/

/-- The items of a module and the state at its end. -/
def readModule (source : List Char) : Except Failure (List Node × State) :=
  (Grammar.ofDepth (depthBound source)).moduleBody ⟨true, false, source.length + 2⟩
    (State.start source)

theorem parseItems_eq (source : List Char) :
    parseItems source = (readModule source).map Prod.fst := by
  show Except.bind (readModule source) _ = _
  cases readModule source <;> rfl

theorem parseModule_eq_ok {source file : String} {root : Node} :
    parseModule source file = .ok root ↔ ∃ items s, readModule source.toList = .ok (items, s) ∧
      root = .mk 0 ⟨0, byteSize source.toList⟩ (.program items) := by
  rw [parseModule, parseTree, parseItems_eq]
  cases readModule source.toList with
  | ok r =>
    obtain ⟨items, s⟩ := r
    constructor
    · exact fun h => ⟨items, s, rfl, (Except.ok.inj h).symm⟩
    · intro h
      obtain ⟨items', s', hread, rfl⟩ := h
      obtain ⟨rfl, -⟩ := Prod.mk.inj (Except.ok.inj hread)
      rfl
  | error e =>
    constructor
    · intro h
      cases h
    · intro h
      obtain ⟨items, s, hread, -⟩ := h
      cases hread

end EsModule.Syntax
