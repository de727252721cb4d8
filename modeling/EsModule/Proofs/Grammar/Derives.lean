import EsModule.Proofs.Lexis.Token
import EsModule.Syntax.Grammar.Function
import EsModule.Syntax.Print.Role

/-!
# The trees of the grammar

Not every `Node` is the tree of a program: a kind has children of any sort. `Derives` says which
nodes may stand where, one nonterminal for every place that the grammar tells apart and one
constructor for every form that a node may have there. It is the specification of what reading
gives, and of what can be printed so that it is read again.

Two things are finer than the grammar of the language. What is bound in a declaration is read by
rules of its own (`bound`), while targets of assignments and the parameters of arrow functions are
expressions that are read again as patterns (`target`); the second way admits a rest in front of
other elements. And the target of a default value was settled as a target for assigning before the
whole was read as a parameter (`settled`), so a member of a value may stand in it.
-/

namespace EsModule.Syntax

open EsModule.Text

/-! ## Names and literals -/

/-- Whether a name is read as a name and nothing else. -/
def IsOwnName (name : String) : Prop :=
  isIdentifierName name.toList = true ∧ Keyword.ofText? name = none

/-- Whether a name can be bound: `async` is a word only in some places. -/
def IsPlainName (name : String) : Prop := name = Keyword.kwAsync.text ∨ IsOwnName name

/-- Whether a name is an identifier, reserved or not. -/
def IsAnyName (name : String) : Prop := isIdentifierName name.toList = true

/-- Whether a name can stand behind a number sign. -/
def IsPrivateName (name : String) : Prop :=
  name ≠ "" ∧ ∀ ch ∈ name.toList, isIdContinue ch = true

/-- Whether a regular expression is one as written: its body does not look like a comment and ends
where the mark behind it closes it. -/
structure IsRegExp (pattern flags : String) : Prop where
  head : ∃ ch, pattern.toList.head? = some ch ∧ ch ≠ '/' ∧ ch ≠ '*'
  body : splitRegExp false (pattern.toList ++ ['/']) = (pattern.toList, true, ['/'])
  flags : ∀ ch ∈ flags.toList, isIdContinue ch = true

/-- Whether a literal is read from its spelling. A string may be without one. -/
def Literal.Spelled : Literal → Prop
  | .number value raw => Spells raw.toList (.number value)
  | .string value (some raw) => Spells raw.toList (.string value)
  | .string _ none | .boolean _ | .null => True
  | .bigInt digits => Spells (digits.toList ++ ['n']) (.bigInt digits)
  | .regExp pattern flags => IsRegExp pattern flags

/-- Whether a literal can be the key of a property. -/
def Literal.isKey : Literal → Bool
  | .number .. | .string .. | .bigInt _ => true
  | _ => false

/-- The mark behind a chunk of a template. -/
def chunkEnd (closes : Bool) : List Char := if closes then ['`'] else ['$', '{']

/-- Whether a chunk is read from its source text and the mark behind it. -/
def Chunk.Spelled (chunk : Chunk) (closes : Bool) : Prop :=
  ∀ r, Takes templateChunk (chunk.raw.toList ++ chunkEnd closes) (.template chunk closes) r

/-- Whether chunks are those of a template with some number of substitutions: only the last one
closes it. -/
inductive TemplateChunks : List Chunk → Nat → Prop where
  | last {chunk : Chunk} (h : chunk.Spelled true) : TemplateChunks [chunk] 0
  | more {chunk : Chunk} {chunks : List Chunk} {n : Nat} (h : chunk.Spelled false)
      (ht : TemplateChunks chunks n) : TemplateChunks (chunk :: chunks) (n + 1)

/-! ## Forms of nodes -/

namespace Node

/-- Whether a node is the target for what is left over. -/
def isRest (n : Node) : Bool :=
  match n.kind with
  | .restElement _ => true
  | _ => false

/-- Whether a node is a member of a value. -/
def isMember (n : Node) : Bool :=
  match n.kind with
  | .memberExpression .. => true
  | _ => false

/-- Whether a node takes a value apart. -/
def isPattern (n : Node) : Bool :=
  match n.kind with
  | .arrayPattern _ | .objectPattern _ => true
  | _ => false

/-- Whether a node is the default import of a module. -/
def isDefaultImport (n : Node) : Bool :=
  match n.kind with
  | .importDefaultSpecifier _ => true
  | _ => false

/-- Whether a node is the import of all exports together. -/
def isNamespaceImport (n : Node) : Bool :=
  match n.kind with
  | .importNamespaceSpecifier _ => true
  | _ => false

/-- Whether a node is the import of one export. -/
def isNamedImport (n : Node) : Bool :=
  match n.kind with
  | .importSpecifier .. => true
  | _ => false

end Node

/-- Whether what is left over comes last, if at all. -/
def RestLast (ns : List Node) : Prop := ∀ n ∈ ns.dropLast, n.isRest = false

/-- The same for a list with holes. -/
def RestLastHoles (es : List (Option Node)) : Prop :=
  ∀ e ∈ es.dropLast, ∀ n, e = some n → n.isRest = false

/-- Whether specifiers are those of one import: perhaps a default import, and behind it all exports
together or some of them. -/
def ImportClause (specifiers : List Node) : Prop :=
  ∃ lead rest, specifiers = lead ++ rest ∧
    (lead = [] ∨ ∃ d : Node, lead = [d] ∧ d.isDefaultImport = true) ∧
    ((∃ n : Node, rest = [n] ∧ n.isNamespaceImport = true) ∨ ∀ n ∈ rest, n.isNamedImport = true)

/-! ## Nonterminals -/

/-- The places in a program that the grammar tells apart. -/
inductive Nonterminal where
  /-- At the top of a module. -/
  | item
  /-- Where any statement may stand. -/
  | statement
  /-- Where only a block may stand. -/
  | block
  /-- A declaration of variables. -/
  | variables
  /-- One of the variables of a declaration. -/
  | declarator
  /-- A function or a class as a statement, perhaps under a name. -/
  | declaration (named : Bool)
  /-- A case of a `switch`. -/
  | switchCase
  /-- The handler of a `try`. -/
  | handler
  /-- The first part in the head of a loop. -/
  | loopStart
  /-- What a loop over keys or values assigns to. -/
  | loopTarget
  /-- In the list of an import. -/
  | importSpecifier
  /-- In a list of exports, perhaps of names of this module. -/
  | exportSpecifier (isLocal : Bool)
  /-- The body of a class. -/
  | classBody
  /-- In the body of a class. -/
  | classMember
  /-- The function of a method, perhaps one that may be `async` or a generator. -/
  | method (plain : Bool)
  /-- The key of a member. -/
  | key (computed : Bool)
  /-- The name of a member behind a point. -/
  | memberName
  /-- Any expression. -/
  | expression
  /-- An expression or a spread. -/
  | argument
  /-- In an object. -/
  | objectMember
  /-- A template. -/
  | template
  /-- A name that is bound. -/
  | name
  /-- The value of a member that is written as the name alone. -/
  | shorthand (name : String)
  /-- A target that binds names. -/
  | bound
  /-- Such a target with or without a default value. -/
  | boundElement
  /-- Such a target, or one for what is left over. -/
  | parameter
  /-- In an object pattern that binds names. -/
  | boundMember
  /-- An expression read as a target, for binding or for assigning. -/
  | target (binding : Bool)
  /-- The same in a list. -/
  | element (binding : Bool)
  /-- The same in an object. -/
  | member (binding : Bool)
  /-- A target that was settled before its default value was read. -/
  | settled (binding : Bool)
  /-- A parameter of an arrow function that is not `async`. -/
  | arrowParameter
deriving DecidableEq

/-- Which nodes may stand in a place, where the flag says whether `yield` is an operator there. -/
inductive Derives : Bool → Nonterminal → Node → Prop where
  -- names and keys
  | name {y id span name} (h : IsPlainName name) : Derives y .name (.mk id span (.identifier name))
  | privateMember {y id span name} (h : IsPrivateName name) :
      Derives y .memberName (.mk id span (.privateName name))
  | namedMember {y id span name} (h : IsAnyName name) :
      Derives y .memberName (.mk id span (.identifier name))
  | memberKey {y n} (h : Derives y .memberName n) : Derives y (.key false) n
  | literalKey {y id span v} (h : v.Spelled) (hk : v.isKey = true) :
      Derives y (.key false) (.mk id span (.literal v))
  | computedKey {y n} (h : Derives y .expression n) : Derives y (.key true) n
  -- items
  | importItem {y id span specifiers source} (hc : ImportClause specifiers)
      (h : ∀ s ∈ specifiers, Derives y .importSpecifier s) :
      Derives y .item (.mk id span (.importDeclaration specifiers source))
  | importSpecifier {y id span imported binding} (h : Derives y .name binding) :
      Derives y .importSpecifier (.mk id span (.importSpecifier imported binding))
  | importDefaultSpecifier {y id span binding} (h : Derives y .name binding) :
      Derives y .importSpecifier (.mk id span (.importDefaultSpecifier binding))
  | importNamespaceSpecifier {y id span binding} (h : Derives y .name binding) :
      Derives y .importSpecifier (.mk id span (.importNamespaceSpecifier binding))
  | exportVariables {y id span d} (h : Derives y .variables d) :
      Derives y .item (.mk id span (.exportNamedDeclaration (some d) [] none))
  | exportDeclaration {y id span d} (h : Derives y (.declaration true) d) :
      Derives y .item (.mk id span (.exportNamedDeclaration (some d) [] none))
  | exportList {y id span specifiers source}
      (h : ∀ s ∈ specifiers, Derives y (.exportSpecifier source.isNone) s) :
      Derives y .item (.mk id span (.exportNamedDeclaration none specifiers source))
  | exportSpecifier {y isLocal id span id' span' name exported}
      (h : isLocal = true → IsPlainName name) :
      Derives y (.exportSpecifier isLocal)
        (.mk id span (.exportSpecifier (.mk id' span' (.identifier name)) exported))
  | exportAll {y id span exported source} :
      Derives y .item (.mk id span (.exportAllDeclaration exported source))
  | exportDefaultDeclaration {y id span d} (h : Derives y (.declaration false) d) :
      Derives y .item (.mk id span (.exportDefaultDeclaration d))
  | exportDefaultValue {y id span d} (h : Derives y .expression d) :
      Derives y .item (.mk id span (.exportDefaultDeclaration d))
  | statementItem {y n} (h : Derives y .statement n) : Derives y .item n
  -- declarations
  | variables {y id span kind declarators} (hne : declarators ≠ [])
      (h : ∀ d ∈ declarators, Derives y .declarator d) :
      Derives y .variables (.mk id span (.variableDeclaration kind declarators))
  | declarator {y id span target init} (ht : Derives y .bound target)
      (hi : ∀ i, init = some i → Derives y .expression i) :
      Derives y .declarator (.mk id span (.variableDeclarator target init))
  | functionDeclaration {y named id span f} (hnamed : named = true → f.name.isSome = true)
      (hn : ∀ n, f.name = some n → Derives y .name n)
      (hp : ∀ p ∈ f.params, Derives f.isGenerator .parameter p) (hr : RestLast f.params)
      (hb : Derives f.isGenerator .block f.body) :
      Derives y (.declaration named) (.mk id span (.functionDeclaration f))
  | classDeclaration {y named id span c} (hnamed : named = true → c.name.isSome = true)
      (hn : ∀ n, c.name = some n → Derives y .name n)
      (hp : ∀ p, c.parent = some p → Derives y .expression p) (hb : Derives y .classBody c.body) :
      Derives y (.declaration named) (.mk id span (.classDeclaration c))
  -- statements
  | block {y id span body}
      (h : ∀ s ∈ body, s.isRemoved = false → Derives y .statement s) :
      Derives y .block (.mk id span (.blockStatement body))
  | blockStatement {y n} (h : Derives y .block n) : Derives y .statement n
  | variablesStatement {y n} (h : Derives y .variables n) : Derives y .statement n
  | declarationStatement {y n} (h : Derives y (.declaration true) n) : Derives y .statement n
  | expressionStatement {y id span e} (h : Derives y .expression e) :
      Derives y .statement (.mk id span (.expressionStatement e))
  | emptyStatement {y id span} : Derives y .statement (.mk id span .emptyStatement)
  | debuggerStatement {y id span} : Derives y .statement (.mk id span .debuggerStatement)
  | ifStatement {y id span test consequent alternate} (ht : Derives y .expression test)
      (hc : Derives y .statement consequent)
      (ha : ∀ a, alternate = some a → Derives y .statement a) :
      Derives y .statement (.mk id span (.ifStatement test consequent alternate))
  | switchStatement {y id span discriminant cases} (hd : Derives y .expression discriminant)
      (hc : ∀ c ∈ cases, Derives y .switchCase c) :
      Derives y .statement (.mk id span (.switchStatement discriminant cases))
  | switchCase {y id span test body} (ht : ∀ t, test = some t → Derives y .expression t)
      (hb : ∀ s ∈ body, s.isRemoved = false → Derives y .statement s) :
      Derives y .switchCase (.mk id span (.switchCase test body))
  | whileStatement {y id span test body} (ht : Derives y .expression test)
      (hb : Derives y .statement body) :
      Derives y .statement (.mk id span (.whileStatement test body))
  | doWhileStatement {y id span body test} (hb : Derives y .statement body)
      (ht : Derives y .expression test) :
      Derives y .statement (.mk id span (.doWhileStatement body test))
  | forStatement {y id span init test update body}
      (hi : ∀ i, init = some i → Derives y .loopStart i)
      (ht : ∀ t, test = some t → Derives y .expression t)
      (hu : ∀ u, update = some u → Derives y .expression u) (hb : Derives y .statement body) :
      Derives y .statement (.mk id span (.forStatement init test update body))
  | forInStatement {y id span left right body} (hl : Derives y .loopTarget left)
      (hr : Derives y .expression right) (hb : Derives y .statement body) :
      Derives y .statement (.mk id span (.forInStatement left right body))
  | forOfStatement {y id span left right body awaits} (hl : Derives y .loopTarget left)
      (hr : Derives y .expression right) (hb : Derives y .statement body) :
      Derives y .statement (.mk id span (.forOfStatement left right body awaits))
  | variablesStart {y n} (h : Derives y .variables n) : Derives y .loopStart n
  | expressionStart {y n} (h : Derives y .expression n) : Derives y .loopStart n
  | variablesTarget {y n} (h : Derives y .variables n) : Derives y .loopTarget n
  | assignedTarget {y n} (h : Derives y (.target false) n) : Derives y .loopTarget n
  | returnStatement {y id span argument} (h : ∀ a, argument = some a → Derives y .expression a) :
      Derives y .statement (.mk id span (.returnStatement argument))
  | breakStatement {y id span label} (h : ∀ l, label = some l → IsOwnName l) :
      Derives y .statement (.mk id span (.breakStatement label))
  | continueStatement {y id span label} (h : ∀ l, label = some l → IsOwnName l) :
      Derives y .statement (.mk id span (.continueStatement label))
  | throwStatement {y id span argument} (h : Derives y .expression argument) :
      Derives y .statement (.mk id span (.throwStatement argument))
  | tryStatement {y id span block handler finalizer} (hb : Derives y .block block)
      (hh : ∀ h, handler = some h → Derives y .handler h)
      (hf : ∀ f, finalizer = some f → Derives y .block f)
      (hsome : handler.isSome = true ∨ finalizer.isSome = true) :
      Derives y .statement (.mk id span (.tryStatement block handler finalizer))
  | catchClause {y id span param body} (hp : ∀ p, param = some p → Derives y .bound p)
      (hb : Derives y .block body) : Derives y .handler (.mk id span (.catchClause param body))
  | labeledStatement {y id span label body} (hl : IsOwnName label)
      (hb : Derives y .statement body) :
      Derives y .statement (.mk id span (.labeledStatement label body))
  -- classes and methods
  | classBody {y id span body} (h : ∀ m ∈ body, Derives y .classMember m) :
      Derives y .classBody (.mk id span (.classBody body))
  | staticBlock {y id span body}
      (h : ∀ s ∈ body, s.isRemoved = false → Derives false .statement s) :
      Derives y .classMember (.mk id span (.staticBlock body))
  | methodDefinition {y id span key value kind computed isStatic}
      (hkind : kind = .getter ∨ kind = .setter ∨
        kind = Grammar.methodKind .plain key computed isStatic)
      (hk : Derives y (.key computed) key)
      (hv : Derives y (.method (kind ≠ .getter ∧ kind ≠ .setter)) value) :
      Derives y .classMember (.mk id span (.methodDefinition key value kind computed isStatic))
  | propertyDefinition {y id span key value computed isStatic}
      (hk : Derives y (.key computed) key)
      (hv : ∀ v, value = some v → Derives false .expression v) :
      Derives y .classMember (.mk id span (.propertyDefinition key value computed isStatic))
  | method {y plain id span f} (hname : f.name = none)
      (hplain : plain = false → f.isAsync = false ∧ f.isGenerator = false)
      (hp : ∀ p ∈ f.params, Derives f.isGenerator .parameter p) (hr : RestLast f.params)
      (hb : Derives f.isGenerator .block f.body) :
      Derives y (.method plain) (.mk id span (.functionExpression f))
  -- expressions
  | identifier {y n} (h : Derives y .name n) : Derives y .expression n
  | literal {y id span v} (h : v.Spelled) : Derives y .expression (.mk id span (.literal v))
  | template {y id span quasis expressions} (hq : TemplateChunks quasis expressions.length)
      (he : ∀ e ∈ expressions, Derives y .expression e) :
      Derives y .template (.mk id span (.templateLiteral quasis expressions))
  | templateLiteral {y n} (h : Derives y .template n) : Derives y .expression n
  | taggedTemplate {y id span tag quasi} (ht : Derives y .expression tag)
      (hq : Derives y .template quasi) :
      Derives y .expression (.mk id span (.taggedTemplate tag quasi))
  | thisExpression {y id span} : Derives y .expression (.mk id span .thisExpression)
  | superExpression {y id span} : Derives y .expression (.mk id span .superExpression)
  | arrayExpression {y id span elements}
      (h : ∀ e ∈ elements, ∀ n, e = some n → Derives y .argument n) :
      Derives y .expression (.mk id span (.arrayExpression elements))
  | objectExpression {y id span properties} (h : ∀ p ∈ properties, Derives y .objectMember p) :
      Derives y .expression (.mk id span (.objectExpression properties))
  | functionExpression {y id span f} (hn : ∀ n, f.name = some n → Derives y .name n)
      (hp : ∀ p ∈ f.params, Derives f.isGenerator .parameter p) (hr : RestLast f.params)
      (hb : Derives f.isGenerator .block f.body) :
      Derives y .expression (.mk id span (.functionExpression f))
  | arrowFunction {y id span params body isExpression isAsync}
      (hp : ∀ p ∈ params, Derives y (if isAsync then .element true else .arrowParameter) p)
      (hr : isAsync = false → RestLast params)
      (hb : Derives false (if isExpression then .expression else .block) body) :
      Derives y .expression (.mk id span (.arrowFunction params body isExpression isAsync))
  | classExpression {y id span c} (hn : ∀ n, c.name = some n → Derives y .name n)
      (hp : ∀ p, c.parent = some p → Derives y .expression p) (hb : Derives y .classBody c.body) :
      Derives y .expression (.mk id span (.classExpression c))
  | unaryExpression {y id span operator argument} (h : Derives y .expression argument) :
      Derives y .expression (.mk id span (.unaryExpression operator argument))
  | updateExpression {y id span operator inFront argument} (h : Derives y .expression argument)
      (hs : argument.isSimpleTarget = true) :
      Derives y .expression (.mk id span (.updateExpression operator inFront argument))
  | binaryExpression {y id span operator left right} (hl : Derives y .expression left)
      (hr : Derives y .expression right) :
      Derives y .expression (.mk id span (.binaryExpression operator left right))
  | assignment {y id span left right} (hl : Derives y (.target false) left)
      (hr : Derives y .expression right) :
      Derives y .expression (.mk id span (.assignmentExpression .assign left right))
  | compoundAssignment {y id span operator left right} (ho : operator ≠ .assign)
      (hl : Derives y .expression left) (hs : left.isSimpleTarget = true)
      (hr : Derives y .expression right) :
      Derives y .expression (.mk id span (.assignmentExpression operator left right))
  | conditionalExpression {y id span test consequent alternate} (ht : Derives y .expression test)
      (hc : Derives y .expression consequent) (ha : Derives y .expression alternate) :
      Derives y .expression (.mk id span (.conditionalExpression test consequent alternate))
  | callExpression {y id span callee arguments optional} (hc : Derives y .expression callee)
      (ha : ∀ a ∈ arguments, Derives y .argument a) :
      Derives y .expression (.mk id span (.callExpression callee arguments optional))
  | newExpression {y id span callee arguments} (hc : Derives y .expression callee)
      (ha : ∀ a ∈ arguments, Derives y .argument a) :
      Derives y .expression (.mk id span (.newExpression callee arguments))
  | memberExpression {y id span object property computed optional}
      (ho : Derives y .expression object)
      (hp : Derives y (if computed then .expression else .memberName) property) :
      Derives y .expression (.mk id span (.memberExpression object property computed optional))
  | sequenceExpression {y id span expressions} (hl : 2 ≤ expressions.length)
      (h : ∀ e ∈ expressions, Derives y .expression e) :
      Derives y .expression (.mk id span (.sequenceExpression expressions))
  | bareYield {id span} :
      Derives true .expression (.mk id span (.yieldExpression none false))
  | yieldExpression {id span argument delegate} (h : Derives true .expression argument) :
      Derives true .expression (.mk id span (.yieldExpression (some argument) delegate))
  | awaitExpression {y id span argument} (h : Derives y .expression argument) :
      Derives y .expression (.mk id span (.awaitExpression argument))
  | metaProperty {y id span which} : Derives y .expression (.mk id span (.metaProperty which))
  | importExpression {y id span source} (h : Derives y .expression source) :
      Derives y .expression (.mk id span (.importExpression source))
  -- lists and objects
  | spreadElement {y id span argument} (h : Derives y .expression argument) :
      Derives y .argument (.mk id span (.spreadElement argument))
  | plainArgument {y n} (h : Derives y .expression n) : Derives y .argument n
  | spreadMember {y id span argument} (h : Derives y .expression argument) :
      Derives y .objectMember (.mk id span (.spreadElement argument))
  | methodMember {y id span key value kind computed method} (hm : method = decide (kind = .plain))
      (hk : Derives y (.key computed) key)
      (hv : Derives y (.method method) value) :
      Derives y .objectMember (.mk id span (.property key value kind computed false method))
  | valueMember {y id span key value computed} (hk : Derives y (.key computed) key)
      (hv : Derives y .expression value) :
      Derives y .objectMember (.mk id span (.property key value .plain computed false false))
  | shorthandMember {y id span id' span' name value} (hn : IsPlainName name)
      (hv : Derives y (.shorthand name) value) :
      Derives y .objectMember
        (.mk id span (.property (.mk id' span' (.identifier name)) value .plain false true false))
  | replacedMember {y id span id' span' name value} (hn : IsPlainName name)
      (hv : Derives y .expression value) :
      Derives y .objectMember
        (.mk id span (.property (.mk id' span' (.identifier name)) value .plain false true false))
  | shorthand {y id span name} : Derives y (.shorthand name) (.mk id span (.identifier name))
  | shorthandDefault {y id span id' span' name right} (hr : Derives y .expression right) :
      Derives y (.shorthand name)
        (.mk id span (.assignmentPattern (.mk id' span' (.identifier name)) right))
  -- what binds names
  | boundName {y n} (h : Derives y .name n) : Derives y .bound n
  | boundArray {y id span elements}
      (h : ∀ e ∈ elements, ∀ n, e = some n → Derives y .parameter n)
      (hr : RestLastHoles elements) : Derives y .bound (.mk id span (.arrayPattern elements))
  | boundObject {y id span properties} (h : ∀ p ∈ properties, Derives y .boundMember p)
      (hr : RestLast properties) : Derives y .bound (.mk id span (.objectPattern properties))
  | boundPlain {y n} (h : Derives y .bound n) : Derives y .boundElement n
  | boundDefault {y id span left right} (hl : Derives y .bound left)
      (hr : Derives y .expression right) :
      Derives y .boundElement (.mk id span (.assignmentPattern left right))
  | parameter {y n} (h : Derives y .boundElement n) : Derives y .parameter n
  | restParameter {y id span argument} (h : Derives y .bound argument) :
      Derives y .parameter (.mk id span (.restElement argument))
  | boundMember {y id span key value computed} (hk : Derives y (.key computed) key)
      (hv : Derives y .boundElement value) :
      Derives y .boundMember (.mk id span (.property key value .plain computed false false))
  | boundShorthand {y id span id' span' name value} (hn : IsPlainName name)
      (hv : Derives y (.shorthand name) value) :
      Derives y .boundMember
        (.mk id span (.property (.mk id' span' (.identifier name)) value .plain false true false))
  | boundRest {y id span argument} (h : Derives y .name argument) :
      Derives y .boundMember (.mk id span (.restElement argument))
  -- expressions that are read again as patterns
  | targetName {y b n} (h : Derives y .name n) : Derives y (.target b) n
  | targetMember {y n} (h : Derives y .expression n) (hm : n.isMember = true) :
      Derives y (.target false) n
  | targetArray {y b id span elements}
      (h : ∀ e ∈ elements, ∀ n, e = some n → Derives y (.element b) n) :
      Derives y (.target b) (.mk id span (.arrayPattern elements))
  | targetObject {y b id span properties} (h : ∀ p ∈ properties, Derives y (.member b) p) :
      Derives y (.target b) (.mk id span (.objectPattern properties))
  | targetDefault {y b id span left right} (hl : Derives y (.settled b) left)
      (hr : Derives y .expression right) :
      Derives y (.target b) (.mk id span (.assignmentPattern left right))
  | elementTarget {y b n} (h : Derives y (.target b) n) : Derives y (.element b) n
  | elementRest {y b id span argument} (h : Derives y (.target b) argument) :
      Derives y (.element b) (.mk id span (.restElement argument))
  | memberTarget {y b id span key value computed} (hk : Derives y (.key computed) key)
      (hv : Derives y (.target b) value) :
      Derives y (.member b) (.mk id span (.property key value .plain computed false false))
  | memberShorthand {y b id span id' span' name value} (hn : IsPlainName name)
      (hv : Derives y (.shorthand name) value) :
      Derives y (.member b)
        (.mk id span (.property (.mk id' span' (.identifier name)) value .plain false true false))
  | memberReplaced {y b id span id' span' name value} (hn : IsPlainName name)
      (hv : Derives y (.target b) value) :
      Derives y (.member b)
        (.mk id span (.property (.mk id' span' (.identifier name)) value .plain false true false))
  | memberRest {y b id span argument} (h : Derives y (.target b) argument) :
      Derives y (.member b) (.mk id span (.restElement argument))
  | settledName {y b n} (h : Derives y .name n) : Derives y (.settled b) n
  | settledMember {y n} (h : Derives y .expression n) (hm : n.isMember = true) :
      Derives y (.settled false) n
  | settledPattern {y b n} (h : Derives y (.target false) n) (hp : n.isPattern = true) :
      Derives y (.settled b) n
  | settledDefault {y b id span left right} (hl : Derives y (.settled b) left)
      (hr : Derives y .expression right) :
      Derives y (.settled b) (.mk id span (.assignmentPattern left right))
  | arrowTarget {y n} (h : Derives y (.target true) n) : Derives y .arrowParameter n
  | arrowRest {y id span argument} (h : Derives y .bound argument) :
      Derives y .arrowParameter (.mk id span (.restElement argument))

end EsModule.Syntax
