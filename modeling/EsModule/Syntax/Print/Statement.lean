import EsModule.Syntax.Print.Role

/-!
# Printed expressions

How expressions and patterns are printed when no parentheses are around them.
-/

namespace EsModule.Syntax

open Pieces

/-- The chunks of a template with its substitutions between them. -/
def templateText (l : Layout) : List Chunk → List Child → Pieces
  | [], _ => []
  | q :: qs, [] => say q.raw ++ templateText l qs []
  | q :: qs, (_, e) :: es =>
    say q.raw ++ say ("$" ++ openBrace) ++ e.expression l Tightness.sequence ++ say closeBrace ++
      templateText l qs es

/-- The elements of an array or of a pattern for one. A hole at the end needs a comma of its own. -/
def elementsText (l : Layout) (elements : List (Option Child)) : Pieces :=
  let items := elements.map fun e => match e with
    | some (_, r) => r.expression l Tightness.assign
    | none => []
  let endsInHole := match elements.getLast? with
    | some none => true
    | _ => false
  say "[" ++ commaList items ++ sayIf endsInHole "," ++ say "]"

/-- The members of an object or of a pattern for one. -/
def membersText (l : Layout) (members : List Child) : Pieces :=
  if members.isEmpty then emptyBraces
  else braced (members.map fun (_, r) => r.expression l Tightness.assign)

/-- Whether a key alone still means its value: the value is the same name, perhaps with a default
value. -/
def shorthandHolds (key value : Node) : Bool :=
  match key.name?, value.kind with
  | some name, .identifier other => other == name
  | some name, .assignmentPattern left _ => left.name? == some name
  | _, _ => false

/-- A member of an object. -/
def propertyText (key value : Child) (kind : PropertyKind) (computed shorthand method : Bool)
    (l : Layout) : Pieces :=
  if method || kind ≠ .plain then value.2.method kind (keyText key computed l) l
  else if shorthand && shorthandHolds key.1 value.1 then value.2.expression l Tightness.assign
  else
    let value := match value.1.kind with
      | .assignmentPattern .. => value.2.bare l
      | _ => value.2.expression l Tightness.assign
    keyText key computed l ++ say ": " ++ value

/-- Whether a space is needed between an operator and its operand, so that they stay apart. -/
def needsSpace {α : Type} (operator : UnaryOperator) (operand : Kind α) : Bool :=
  operator.isKeyword || match operator, operand with
    | .minus, .unaryExpression .minus _ | .plus, .unaryExpression .plus _ => true
    | .minus, .updateExpression _ true _ | .plus, .updateExpression _ true _ => true
    | _, _ => false

/-- Whether an operand needs parentheses because `??` does not mix with `&&` and `||`. -/
def mixesNullish {α : Type} (parent : BinaryOperator) (operand : Kind α) : Bool :=
  let isAndOr (operator : BinaryOperator) := operator = .logicalAnd || operator = .logicalOr
  match operand with
  | .binaryExpression operator _ _ =>
    (parent = .nullishCoalescing && isAndOr operator) ||
      (operator = .nullishCoalescing && isAndOr parent)
  | _ => false

/-- An operand of a binary operator. -/
def operandText (parent : BinaryOperator) (l : Layout) (operand : Child) (least : Nat) : Pieces :=
  if mixesNullish parent operand.1.kind then
    parenthesized (operand.2.expression l Tightness.sequence)
  else operand.2.expression l least

/-- The least tightness of the two operands of an operator. -/
def operandTightness (operator : BinaryOperator) : Nat × Nat :=
  let own := Tightness.binary operator
  if operator = .exponent then (Tightness.postfixed, own) else (own, own + 1)

/-- Whether a point behind an expression would be read as the point of a number. -/
def isBareInteger {α : Type} : Kind α → Bool
  | .literal (.number _ raw) => raw.toList.all Char.isDigit
  | _ => false

/-- The mark between an object and its property. -/
def memberMark (computed optional : Bool) : String :=
  match computed, optional with
  | true, true => "?.["
  | true, false => "["
  | false, true => "?."
  | false, false => "."

/-- The body of an arrow function. -/
def arrowBodyText (body : Child) (isExpression : Bool) (l : Layout) : Pieces :=
  if isExpression then guarded [.object] body.2 l Tightness.assign else body.2.statement l

/-- An expression without parentheses around it. What is no expression is printed as nothing. -/
def bareText (kind : Kind Child) (l : Layout) : Pieces :=
  match kind with
  | .identifier name => say name
  | .privateName name => say ("#" ++ name)
  | .literal value => say (literalText value)
  | .templateLiteral quasis expressions => say "`" ++ templateText l quasis expressions ++ say "`"
  | .taggedTemplate (_, tag) (_, quasi) =>
    tag.expression l Tightness.call ++ quasi.expression l Tightness.primary
  | .thisExpression => say "this"
  | .superExpression => say "super"
  | .arrayExpression elements | .arrayPattern elements => elementsText l elements
  | .objectExpression members | .objectPattern members => membersText l members
  | .property key value kind computed shorthand method =>
    propertyText key value kind computed shorthand method l
  | .spreadElement (_, argument) | .restElement (_, argument) =>
    say "..." ++ argument.expression l Tightness.assign
  | .functionExpression f => functionText f l
  | .arrowFunction params body isExpression isAsync =>
    sayIf isAsync "async " ++ parameterList l params ++ say " => " ++
      arrowBodyText body isExpression l
  | .classExpression c => classText c l
  | .unaryExpression operator (argument, r) =>
    say operator.text ++ sayIf (needsSpace operator argument.kind) " " ++
      r.expression l Tightness.unary
  | .updateExpression operator true (_, argument) =>
    say operator.text ++ argument.expression l Tightness.unary
  | .updateExpression operator false (_, argument) =>
    argument.expression l Tightness.postfixed ++ say operator.text
  | .binaryExpression operator left right =>
    let (leastLeft, leastRight) := operandTightness operator
    operandText operator l left leastLeft ++ say (" " ++ operator.text ++ " ") ++
      operandText operator l right leastRight
  | .assignmentExpression operator (_, left) (_, right) =>
    left.expression l Tightness.call ++ say (" " ++ operator.text ++ " ") ++
      right.expression l Tightness.assign
  | .assignmentPattern (_, left) (_, right) =>
    left.expression l Tightness.call ++ say " = " ++ right.expression l Tightness.assign
  | .conditionalExpression (_, test) (_, consequent) (_, alternate) =>
    test.expression l (Tightness.conditional + 1) ++ say " ? " ++
      consequent.expression l Tightness.assign ++ say " : " ++
      alternate.expression l Tightness.assign
  | .callExpression (_, callee) args optional =>
    callee.expression l Tightness.call ++ sayIf optional "?." ++
      parenthesized (expressionList l args)
  | .newExpression (_, callee) args =>
    say "new " ++
      (if callee.hasCall then parenthesized (callee.expression l Tightness.sequence)
        else callee.expression l Tightness.call) ++
      parenthesized (expressionList l args)
  | .memberExpression (object, r) (_, property) computed optional =>
    (if isBareInteger object.kind then parenthesized (r.expression l Tightness.sequence)
      else r.expression l Tightness.call) ++
      say (memberMark computed optional) ++
      (if computed then property.expression l Tightness.sequence ++ say "]"
        else property.expression l Tightness.primary)
  | .sequenceExpression expressions => expressionList l expressions
  | .yieldExpression argument delegate =>
    say (if delegate then "yield*" else "yield") ++
      match argument with
      | some (_, r) => say " " ++ r.expression l Tightness.assign
      | none => []
  | .awaitExpression (_, argument) => say "await " ++ argument.expression l Tightness.unary
  | .metaProperty .newTarget => say "new.target"
  | .metaProperty .importMeta => say "import.meta"
  | .importExpression (_, source) =>
    say "import" ++ parenthesized (source.expression l Tightness.assign)
  | _ => []

/-!
## Printed statements

How statements are printed, and the roles of every kind of node, which tie statements and
expressions together.
-/

/-- A declaration of variables without the semicolon at its end. -/
def declarationText (kind : VariableKind) (declarators : List Child) (l : Layout) : Pieces :=
  say (kind.keyword.text ++ " ") ++ commaList (declarators.map fun (_, r) => r.declarator l)

/-- A choice. In front of an `else` the first statement is put in braces, so that the `else` cannot
go to a choice inside it. -/
def ifText (test consequent : Child) (alternate : Option Child) (l : Layout) : Pieces :=
  say "if (" ++ test.2.expression l Tightness.sequence ++ say ")" ++
    match alternate with
    | none => nested l consequent
    | some alternate =>
      (if consequent.1.isBlock then nested l consequent else say " " ++ block l [consequent]) ++
        say " else" ++
        match alternate.1.kind with
        | .ifStatement .. => say " " ++ alternate.2.statement l
        | _ => nested l alternate

/-- A part of the head of a loop that may be missing. -/
def forPartText (part : Option Child) (l : Layout) : Pieces :=
  match part with
  | some (_, r) => say " " ++ r.expression l Tightness.sequence
  | none => []

/-- A jump, perhaps to a label. -/
def jumpText (word : Keyword) (label : Option String) : Pieces :=
  match label with
  | some label => say (word.text ++ " " ++ label ++ ";")
  | none => say (word.text ++ ";")

/-- A block with its handler and the block that follows in any case. -/
def tryText (block : Child) (handler finalizer : Option Child) (l : Layout) : Pieces :=
  say "try " ++ block.2.statement l ++
    (match handler with
      | some (_, r) => r.handler l
      | none => []) ++
    (match finalizer with
      | some (_, r) => say " finally " ++ r.statement l
      | none => [])

/-! ### Imports and exports -/

/-- Adds a clause to those in front of it, with a comma between them. -/
def addClause (before clause : Pieces) : Pieces :=
  if before.isEmpty then clause else before ++ say ", " ++ clause

/-- Adds the part of an import that stands in front of the braces. A default import comes first, so
it needs no comma. -/
def addImportLead (before : Pieces) : Kind Node → Pieces
  | .importDefaultSpecifier binding => before ++ say (binding.name?.getD "")
  | .importNamespaceSpecifier binding => addClause before (say ("* as " ++ binding.name?.getD ""))
  | _ => before

/-- The part of an import that stands between the braces. -/
def importNameText : Kind Node → Option String
  | .importSpecifier imported binding =>
    let name := binding.name?.getD ""
    some (if imported = name then name else exportNameText imported ++ " as " ++ name)
  | _ => none

/-- An import. -/
def importText (specifiers : List Child) (source : String) : Pieces :=
  let lead := specifiers.foldl (fun before (n, _) => addImportLead before n.kind) []
  let names := specifiers.filterMap fun (n, _) => importNameText n.kind
  let clauses := if names.isEmpty then lead else addClause lead (braced (names.map say))
  say "import " ++ clauses ++ sayIf (!clauses.isEmpty) " from " ++ say (quote source ++ ";")

/-- A name in a list of exports. -/
def exportSpecifierText : Kind Node → Pieces
  | .exportSpecifier binding exported =>
    let name := binding.name?.getD ""
    say (exportNameText name) ++ sayIf (name ≠ exported) (" as " ++ exportNameText exported)
  | _ => []

/-- A list of exports. -/
def exportListText (specifiers : List Child) (source : Option String) : Pieces :=
  (if specifiers.isEmpty then emptyBraces
    else braced (specifiers.map fun (n, _) => exportSpecifierText n.kind)) ++
    (match source with
      | some source => say (" from " ++ quote source)
      | none => []) ++
    say ";"

/-- The default export. A function or class that is no declaration needs parentheses to stay one. -/
def exportDefaultText (declaration : Child) (l : Layout) : Pieces :=
  say "export default " ++
    match declaration.1.kind with
    | .functionDeclaration _ | .classDeclaration _ => declaration.2.statement l
    | _ => guarded [.declaration] declaration.2 l Tightness.sequence ++ say ";"

/-- All exports of another module. -/
def exportAllText (exported : Option String) (source : String) : Pieces :=
  let asName := match exported with
    | some name => "as " ++ exportNameText name ++ " "
    | none => ""
  say ("export * " ++ asName ++ "from " ++ quote source ++ ";")

/-! ### Statements -/

/-- A statement, for which `asExpression` is how it would be printed as an expression. -/
def statementText (kind : Kind Child) (asExpression : Layout → Pieces) (l : Layout) : Pieces :=
  match kind with
  | .variableDeclaration kind declarators => declarationText kind declarators l ++ say ";"
  | .functionDeclaration f => functionText f l
  | .classDeclaration c => classText c l
  | .expressionStatement (_, e) =>
    guarded [.object, .objectPattern, .declaration] e l Tightness.sequence ++ say ";"
  | .blockStatement body => block l body
  | .emptyStatement => say ";"
  | .debuggerStatement => say "debugger;"
  | .ifStatement test consequent alternate => ifText test consequent alternate l
  | .switchStatement (_, discriminant) cases =>
    say "switch (" ++ discriminant.expression l Tightness.sequence ++
      say (") " ++ openBrace ++ "\n") ++ (cases.flatMap fun (_, r) => r.switchCase l.deeper) ++
      indentation l ++ say closeBrace
  | .whileStatement (_, test) body =>
    say "while (" ++ test.expression l Tightness.sequence ++ say ")" ++ nested l body
  | .doWhileStatement body (_, test) =>
    say "do" ++ nested l body ++ (if body.1.isBlock then say " " else say "\n" ++ indentation l) ++
      say "while (" ++ test.expression l Tightness.sequence ++ say ");"
  | .forStatement init test update body =>
    let head := match init with
      | some (_, r) => r.loopHead { l with noIn := true }
      | none => []
    say "for (" ++ head ++ say ";" ++ forPartText test l ++ say ";" ++ forPartText update l ++
      say ")" ++ nested l body
  | .forInStatement (_, left) (_, right) body =>
    say "for (" ++ left.loopHead l ++ say " in " ++ right.expression l Tightness.sequence ++
      say ")" ++ nested l body
  | .forOfStatement (_, left) (_, right) body awaits =>
    say (if awaits then "for await (" else "for (") ++ left.loopHead l ++ say " of " ++
      right.expression l Tightness.assign ++ say ")" ++ nested l body
  | .returnStatement argument =>
    say "return" ++ forPartText argument l ++ say ";"
  | .breakStatement label => jumpText .kwBreak label
  | .continueStatement label => jumpText .kwContinue label
  | .throwStatement (_, argument) =>
    say "throw " ++ argument.expression l Tightness.sequence ++ say ";"
  | .tryStatement block handler finalizer => tryText block handler finalizer l
  | .labeledStatement label body => say (label ++ ":") ++ nested l body
  | .importDeclaration specifiers source => importText specifiers source
  | .exportNamedDeclaration (some (_, declaration)) _ _ =>
    say "export " ++ declaration.statement l
  | .exportNamedDeclaration none specifiers source =>
    say "export " ++ exportListText specifiers source
  | .exportDefaultDeclaration declaration => exportDefaultText declaration l
  | .exportAllDeclaration exported source => exportAllText exported source
  | .removed => []
  | _ => asExpression l ++ say ";"

/-- A case of a `switch` on lines of its own, with its statements below it. -/
def switchCaseText (test : Option Child) (body : List Child) (l : Layout) : Pieces :=
  indentation l ++
    (match test with
      | some (_, r) => say "case " ++ r.expression l Tightness.sequence ++ say ":\n"
      | none => say "default:\n") ++
    lines l.deeper body

/-- The handler of a `try`. -/
def handlerText (param : Option Child) (body : Child) (l : Layout) : Pieces :=
  let param := match param with
    | some (_, r) => parenthesized (r.expression l Tightness.assign) ++ say " "
    | none => []
  say " catch " ++ param ++ body.2.statement l

/-- The members of a class on lines of their own. -/
def classBodyText (members : List Child) (l : Layout) : Pieces :=
  if members.isEmpty then emptyBraces
  else
    say (openBrace ++ "\n") ++
      (members.flatMap fun (_, r) => indentation l.deeper ++ r.member l.deeper ++ say "\n") ++
      indentation l ++ say closeBrace

/-- A member of a class. -/
def memberText (kind : Kind Child) (l : Layout) : Pieces :=
  match kind with
  | .methodDefinition key (_, value) kind computed isStatic =>
    let accessor := match kind with
      | .getter => .getter
      | .setter => .setter
      | .constructor | .method => .plain
    sayIf isStatic "static " ++ value.method accessor (keyText key computed l) l
  | .propertyDefinition key value computed isStatic =>
    let value := match value with
      | some (_, r) => say " = " ++ r.expression l Tightness.assign
      | none => []
    sayIf isStatic "static " ++ keyText key computed l ++ value ++ say ";"
  | .staticBlock body => say "static " ++ block l body
  | _ => []

/-! ### All roles together -/

/-- The ways to print a node, from the ways to print its children. -/
def Roles.ofKind (span : Span) (kind : Kind Child) : Roles :=
  let bare (l : Layout) : Pieces := mark span ++ bareText kind l
  let expression := wrapped kind bare
  { bare, expression
    opening := kind.opening
    hasCall := kind.hasCall
    statement := fun l =>
      mark span ++ statementText kind (fun l => expression l Tightness.sequence) l
    loopHead := fun l => match kind with
      | .variableDeclaration kind declarators => declarationText kind declarators l
      | _ => expression l Tightness.sequence
    declarator := fun l => match kind with
      | .variableDeclarator (_, target) none => target.expression l Tightness.assign
      | .variableDeclarator (_, target) (some (_, init)) =>
        target.expression l Tightness.assign ++ say " = " ++ init.expression l Tightness.assign
      | _ => []
    switchCase := fun l => match kind with
      | .switchCase test body => switchCaseText test body l
      | _ => []
    handler := fun l => match kind with
      | .catchClause param body => handlerText param body l
      | _ => []
    classBody := fun l => match kind with
      | .classBody members => classBodyText members l
      | _ => emptyBraces
    member := fun l => mark span ++ memberText kind l
    method := fun accessor key l => match kind with
      | .functionExpression f => methodText f accessor key l
      | _ => [] }

/-- The ways to print a node. -/
def Node.roles : Node → Roles := Node.para fun _ span kind => Roles.ofKind span kind

/-- The items of a module as printed: each on a line of its own. -/
def Node.printed (root : Node) : Pieces :=
  match root.kind with
  | .program body => lines .top (body.map fun n => (n, n.roles))
  | _ => []

end EsModule.Syntax
