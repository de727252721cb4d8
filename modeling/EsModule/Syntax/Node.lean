import EsModule.Syntax.Operator

/-!
# Syntax trees

A node has a number, the span of source text that it was read from, and a kind. `Kind α` is one
layer of a tree whose children are values of type `α`: with nodes for children it makes `Node`, and
with numbers for children it makes the tables in which trees are changed.

The numbers of nodes have no bound. A program that gives them 32 bits runs out of them only for
sources of more than 4 GiB, which are left out.

Whatever is computed from a tree from the leaves up is a `Node.para`: a function that combines the
kind of a node, with the children's results beside the children.
-/

namespace EsModule.Syntax

open EsModule.Number (Binary64)

/-! ## The parts of a kind that are no nodes -/

/-- The three words that declare variables. -/
inductive VariableKind where
  | varKind | letKind | constKind
deriving DecidableEq

/-- The word of a variable declaration. -/
def VariableKind.keyword : VariableKind → Keyword
  | .varKind => .kwVar
  | .letKind => .kwLet
  | .constKind => .kwConst

/-- The values that can be written down directly. -/
inductive Literal where
  /-- A number and its spelling, which is empty if there is none. -/
  | number (value : Binary64) (raw : String)
  /-- A string, and its spelling if there is one. -/
  | string (value : String) (raw : Option String)
  /-- A truth value. -/
  | boolean (value : Bool)
  /-- The null value. -/
  | null
  /-- An integer of any size, by its digits. -/
  | bigInt (digits : String)
  /-- A regular expression. -/
  | regExp (pattern flags : String)
deriving DecidableEq

/-- The kinds of members of an object. -/
inductive PropertyKind where
  | plain | getter | setter
deriving DecidableEq

/-- The kinds of methods of a class. -/
inductive MethodKind where
  | constructor | method | getter | setter
deriving DecidableEq

/-- The two properties of the code itself. -/
inductive MetaProperty where
  | newTarget | importMeta
deriving DecidableEq

/-- What function declarations and function expressions share. -/
structure Function (α : Type) where
  /-- The name of the function. -/
  name : Option α
  /-- The targets of its arguments. -/
  params : List α
  /-- The block that it runs. -/
  body : α
  /-- Whether it is an `async` function. -/
  isAsync : Bool
  /-- Whether it is a generator. -/
  isGenerator : Bool

/-- What class declarations and class expressions share. -/
structure Class (α : Type) where
  /-- The name of the class. -/
  name : Option α
  /-- The class it extends. -/
  parent : Option α
  /-- Its body. -/
  body : α

/-! ## Kinds -/

/-- One layer of a syntax tree, with children of type `α`. -/
inductive Kind (α : Type) where
  /-- A whole module. -/
  | program (body : List α)
  /-- A list of variables. -/
  | variableDeclaration (kind : VariableKind) (declarators : List α)
  /-- One target of a declaration and its initial value. -/
  | variableDeclarator (target : α) (init : Option α)
  /-- A function as a statement. -/
  | functionDeclaration (function : Function α)
  /-- A class as a statement. -/
  | classDeclaration (definition : Class α)
  /-- An expression as a statement. -/
  | expressionStatement (expression : α)
  /-- Statements between braces. -/
  | blockStatement (body : List α)
  /-- A semicolon alone. -/
  | emptyStatement
  /-- The statement `debugger`. -/
  | debuggerStatement
  /-- A choice, perhaps with an `else`. -/
  | ifStatement (test consequent : α) (alternate : Option α)
  /-- A choice among cases. -/
  | switchStatement (discriminant : α) (cases : List α)
  /-- One case, or the default one if there is no test. -/
  | switchCase (test : Option α) (body : List α)
  /-- A loop that tests first. -/
  | whileStatement (test body : α)
  /-- A loop that tests last. -/
  | doWhileStatement (body test : α)
  /-- A loop with a three-part head. -/
  | forStatement (init test update : Option α) (body : α)
  /-- A loop over keys. -/
  | forInStatement (left right body : α)
  /-- A loop over values, perhaps awaiting each. -/
  | forOfStatement (left right body : α) (awaits : Bool)
  /-- The end of a function, perhaps with a value. -/
  | returnStatement (argument : Option α)
  /-- The end of a statement around it. -/
  | breakStatement (label : Option String)
  /-- The next round of a loop around it. -/
  | continueStatement (label : Option String)
  /-- An exception. -/
  | throwStatement (argument : α)
  /-- A block whose exceptions are handled. -/
  | tryStatement (block : α) (handler finalizer : Option α)
  /-- The handler of a `try`. -/
  | catchClause (param : Option α) (body : α)
  /-- A statement that jumps can name. -/
  | labeledStatement (label : String) (body : α)
  /-- An import of another module. -/
  | importDeclaration (specifiers : List α) (source : String)
  /-- One export under a name of its own here. -/
  | importSpecifier (imported : String) (binding : α)
  /-- The default export under a name here. -/
  | importDefaultSpecifier (binding : α)
  /-- All exports together under a name here. -/
  | importNamespaceSpecifier (binding : α)
  /-- An exported declaration, or a list of exports, perhaps from another module. -/
  | exportNamedDeclaration (declaration : Option α) (specifiers : List α) (source : Option String)
  /-- One name under its exported name. -/
  | exportSpecifier (binding : α) (exported : String)
  /-- The default export. -/
  | exportDefaultDeclaration (declaration : α)
  /-- All exports of another module, perhaps under one name. -/
  | exportAllDeclaration (exported : Option String) (source : String)
  /-- A name. -/
  | identifier (name : String)
  /-- A private name, without the number sign. -/
  | privateName (name : String)
  /-- A literal value. -/
  | literal (value : Literal)
  /-- A template: its chunks and the substitutions between them. -/
  | templateLiteral (quasis : List Chunk) (expressions : List α)
  /-- A template handed to a function. -/
  | taggedTemplate (tag quasi : α)
  /-- The word `this`. -/
  | thisExpression
  /-- The word `super`. -/
  | superExpression
  /-- An array, perhaps with holes. -/
  | arrayExpression (elements : List (Option α))
  /-- An object. -/
  | objectExpression (properties : List α)
  /-- A member of an object or of an object pattern. -/
  | property (key value : α) (kind : PropertyKind) (computed shorthand method : Bool)
  /-- All values of an iterable in place. -/
  | spreadElement (argument : α)
  /-- A function as an expression. -/
  | functionExpression (function : Function α)
  /-- A function written with an arrow, whose body may be one expression. -/
  | arrowFunction (params : List α) (body : α) (isExpression isAsync : Bool)
  /-- A class as an expression. -/
  | classExpression (definition : Class α)
  /-- The members of a class. -/
  | classBody (body : List α)
  /-- A method of a class. -/
  | methodDefinition (key value : α) (kind : MethodKind) (computed isStatic : Bool)
  /-- A field of a class. -/
  | propertyDefinition (key : α) (value : Option α) (computed isStatic : Bool)
  /-- Statements that run when a class is made. -/
  | staticBlock (body : List α)
  /-- An operator in front of its operand. -/
  | unaryExpression (operator : UnaryOperator) (argument : α)
  /-- An update in front of its target or behind it. -/
  | updateExpression (operator : UpdateOperator) (inFront : Bool) (argument : α)
  /-- An operator between its operands. -/
  | binaryExpression (operator : BinaryOperator) (left right : α)
  /-- An assignment. -/
  | assignmentExpression (operator : AssignmentOperator) (left right : α)
  /-- A choice between two values. -/
  | conditionalExpression (test consequent alternate : α)
  /-- A call, perhaps only if there is something to call. -/
  | callExpression (callee : α) (arguments : List α) (optional : Bool)
  /-- The making of an object. -/
  | newExpression (callee : α) (arguments : List α)
  /-- A member of a value, perhaps only if there is a value. -/
  | memberExpression (object property : α) (computed optional : Bool)
  /-- Expressions one after the other. -/
  | sequenceExpression (expressions : List α)
  /-- A value of a generator, or all values of another one. -/
  | yieldExpression (argument : Option α) (delegate : Bool)
  /-- The outcome of a promise. -/
  | awaitExpression (argument : α)
  /-- A property of the code itself. -/
  | metaProperty (which : MetaProperty)
  /-- An import at run time. -/
  | importExpression (source : α)
  /-- A target that takes an object apart. -/
  | objectPattern (properties : List α)
  /-- A target that takes a list apart. -/
  | arrayPattern (elements : List (Option α))
  /-- The target for what is left over. -/
  | restElement (argument : α)
  /-- A target with a value to take if there is none. -/
  | assignmentPattern (left right : α)
  /-- Nothing: a node that was taken out. -/
  | removed

/-- A node of a syntax tree. -/
inductive Node where
  | mk (id : Nat) (span : Span) (kind : Kind Node)

/-- The layer with a function applied to all children. -/
def Function.map {α β : Type} (f : α → β) (g : Function α) : Function β :=
  ⟨g.name.map f, g.params.map f, f g.body, g.isAsync, g.isGenerator⟩

/-- The children of a function in source order. -/
def Function.children {α : Type} (g : Function α) : List α := g.name.toList ++ g.params ++ [g.body]

/-- The layer with a function applied to all children. -/
def Class.map {α β : Type} (f : α → β) (c : Class α) : Class β :=
  ⟨c.name.map f, c.parent.map f, f c.body⟩

/-- The children of a class in source order. -/
def Class.children {α : Type} (c : Class α) : List α := c.name.toList ++ c.parent.toList ++ [c.body]

namespace Kind

/-- The layer with a function applied to all children. -/
def map {α β : Type} (f : α → β) : Kind α → Kind β
  | .program b => .program (b.map f)
  | .variableDeclaration j ds => .variableDeclaration j (ds.map f)
  | .variableDeclarator t i => .variableDeclarator (f t) (i.map f)
  | .functionDeclaration g => .functionDeclaration (g.map f)
  | .classDeclaration c => .classDeclaration (c.map f)
  | .expressionStatement e => .expressionStatement (f e)
  | .blockStatement b => .blockStatement (b.map f)
  | .emptyStatement => .emptyStatement
  | .debuggerStatement => .debuggerStatement
  | .ifStatement t c a => .ifStatement (f t) (f c) (a.map f)
  | .switchStatement d cs => .switchStatement (f d) (cs.map f)
  | .switchCase t b => .switchCase (t.map f) (b.map f)
  | .whileStatement t b => .whileStatement (f t) (f b)
  | .doWhileStatement b t => .doWhileStatement (f b) (f t)
  | .forStatement i t u b => .forStatement (i.map f) (t.map f) (u.map f) (f b)
  | .forInStatement l r b => .forInStatement (f l) (f r) (f b)
  | .forOfStatement l r b w => .forOfStatement (f l) (f r) (f b) w
  | .returnStatement a => .returnStatement (a.map f)
  | .breakStatement n => .breakStatement n
  | .continueStatement n => .continueStatement n
  | .throwStatement a => .throwStatement (f a)
  | .tryStatement b h z => .tryStatement (f b) (h.map f) (z.map f)
  | .catchClause p b => .catchClause (p.map f) (f b)
  | .labeledStatement n b => .labeledStatement n (f b)
  | .importDeclaration ss s => .importDeclaration (ss.map f) s
  | .importSpecifier x b => .importSpecifier x (f b)
  | .importDefaultSpecifier b => .importDefaultSpecifier (f b)
  | .importNamespaceSpecifier b => .importNamespaceSpecifier (f b)
  | .exportNamedDeclaration d ss s => .exportNamedDeclaration (d.map f) (ss.map f) s
  | .exportSpecifier b x => .exportSpecifier (f b) x
  | .exportDefaultDeclaration d => .exportDefaultDeclaration (f d)
  | .exportAllDeclaration x s => .exportAllDeclaration x s
  | .identifier n => .identifier n
  | .privateName n => .privateName n
  | .literal v => .literal v
  | .templateLiteral qs es => .templateLiteral qs (es.map f)
  | .taggedTemplate t q => .taggedTemplate (f t) (f q)
  | .thisExpression => .thisExpression
  | .superExpression => .superExpression
  | .arrayExpression es => .arrayExpression (es.map (·.map f))
  | .objectExpression ps => .objectExpression (ps.map f)
  | .property k v j co s m => .property (f k) (f v) j co s m
  | .spreadElement a => .spreadElement (f a)
  | .functionExpression g => .functionExpression (g.map f)
  | .arrowFunction ps b e y => .arrowFunction (ps.map f) (f b) e y
  | .classExpression c => .classExpression (c.map f)
  | .classBody b => .classBody (b.map f)
  | .methodDefinition k v j co t => .methodDefinition (f k) (f v) j co t
  | .propertyDefinition k v co t => .propertyDefinition (f k) (v.map f) co t
  | .staticBlock b => .staticBlock (b.map f)
  | .unaryExpression op a => .unaryExpression op (f a)
  | .updateExpression op p a => .updateExpression op p (f a)
  | .binaryExpression op l r => .binaryExpression op (f l) (f r)
  | .assignmentExpression op l r => .assignmentExpression op (f l) (f r)
  | .conditionalExpression t c a => .conditionalExpression (f t) (f c) (f a)
  | .callExpression c args o => .callExpression (f c) (args.map f) o
  | .newExpression c args => .newExpression (f c) (args.map f)
  | .memberExpression o p k op => .memberExpression (f o) (f p) k op
  | .sequenceExpression es => .sequenceExpression (es.map f)
  | .yieldExpression a d => .yieldExpression (a.map f) d
  | .awaitExpression a => .awaitExpression (f a)
  | .metaProperty w => .metaProperty w
  | .importExpression s => .importExpression (f s)
  | .objectPattern ps => .objectPattern (ps.map f)
  | .arrayPattern es => .arrayPattern (es.map (·.map f))
  | .restElement a => .restElement (f a)
  | .assignmentPattern l r => .assignmentPattern (f l) (f r)
  | .removed => .removed

/-- The children in source order. -/
def children {α : Type} : Kind α → List α
  | .program b => b
  | .variableDeclaration _ ds => ds
  | .variableDeclarator t i => [t] ++ i.toList
  | .functionDeclaration g => g.children
  | .classDeclaration c => c.children
  | .expressionStatement e => [e]
  | .blockStatement b => b
  | .ifStatement t c a => [t, c] ++ a.toList
  | .switchStatement d cs => [d] ++ cs
  | .switchCase t b => t.toList ++ b
  | .whileStatement t b => [t, b]
  | .doWhileStatement b t => [b, t]
  | .forStatement i t u b => i.toList ++ t.toList ++ u.toList ++ [b]
  | .forInStatement l r b => [l, r, b]
  | .forOfStatement l r b _ => [l, r, b]
  | .returnStatement a => a.toList
  | .throwStatement a => [a]
  | .tryStatement b h z => [b] ++ h.toList ++ z.toList
  | .catchClause p b => p.toList ++ [b]
  | .labeledStatement _ b => [b]
  | .importDeclaration ss _ => ss
  | .importSpecifier _ b => [b]
  | .importDefaultSpecifier b => [b]
  | .importNamespaceSpecifier b => [b]
  | .exportNamedDeclaration d ss _ => d.toList ++ ss
  | .exportSpecifier b _ => [b]
  | .exportDefaultDeclaration d => [d]
  | .templateLiteral _ es => es
  | .taggedTemplate t q => [t, q]
  | .arrayExpression es => es.filterMap id
  | .objectExpression ps => ps
  | .property k v _ _ _ _ => [k, v]
  | .spreadElement a => [a]
  | .functionExpression g => g.children
  | .arrowFunction ps b _ _ => ps ++ [b]
  | .classExpression c => c.children
  | .classBody b => b
  | .methodDefinition k v _ _ _ => [k, v]
  | .propertyDefinition k v _ _ => [k] ++ v.toList
  | .staticBlock b => b
  | .unaryExpression _ a => [a]
  | .updateExpression _ _ a => [a]
  | .binaryExpression _ l r => [l, r]
  | .assignmentExpression _ l r => [l, r]
  | .conditionalExpression t c a => [t, c, a]
  | .callExpression c args _ => [c] ++ args
  | .newExpression c args => [c] ++ args
  | .memberExpression o p _ _ => [o, p]
  | .sequenceExpression es => es
  | .yieldExpression a _ => a.toList
  | .awaitExpression a => [a]
  | .importExpression s => [s]
  | .objectPattern ps => ps
  | .arrayPattern es => es.filterMap id
  | .restElement a => [a]
  | .assignmentPattern l r => [l, r]
  | _ => []

end Kind

/-! ## Combining from the leaves up -/

namespace Node

/-- The number of a node. -/
def id : Node → Nat
  | .mk id _ _ => id

/-- The source text that a node was read from. -/
def span : Node → Span
  | .mk _ span _ => span

/-- The kind of a node. -/
def kind : Node → Kind Node
  | .mk _ _ kind => kind

/-- The same node with another kind. -/
def withKind (n : Node) (kind : Kind Node) : Node := .mk n.id n.span kind

mutual

/-- Combines the results for the children, each beside its child, at every node from the leaves
up. -/
def para {ρ : Type} (f : Nat → Span → Kind (Node × ρ) → ρ) : Node → ρ
  | .mk id span kind => f id span (paraKind f kind)

/-- The layer with every child beside its result. -/
def paraKind {ρ : Type} (f : Nat → Span → Kind (Node × ρ) → ρ) : Kind Node → Kind (Node × ρ)
  | .program b => .program (paraList f b)
  | .variableDeclaration j ds => .variableDeclaration j (paraList f ds)
  | .variableDeclarator t i => .variableDeclarator (t, para f t) (paraOption f i)
  | .functionDeclaration g => .functionDeclaration (paraFunction f g)
  | .classDeclaration c => .classDeclaration (paraClass f c)
  | .expressionStatement e => .expressionStatement (e, para f e)
  | .blockStatement b => .blockStatement (paraList f b)
  | .emptyStatement => .emptyStatement
  | .debuggerStatement => .debuggerStatement
  | .ifStatement t c a => .ifStatement (t, para f t) (c, para f c) (paraOption f a)
  | .switchStatement d cs => .switchStatement (d, para f d) (paraList f cs)
  | .switchCase t b => .switchCase (paraOption f t) (paraList f b)
  | .whileStatement t b => .whileStatement (t, para f t) (b, para f b)
  | .doWhileStatement b t => .doWhileStatement (b, para f b) (t, para f t)
  | .forStatement i t u b =>
      .forStatement (paraOption f i) (paraOption f t) (paraOption f u) (b, para f b)
  | .forInStatement l r b => .forInStatement (l, para f l) (r, para f r) (b, para f b)
  | .forOfStatement l r b w => .forOfStatement (l, para f l) (r, para f r) (b, para f b) w
  | .returnStatement a => .returnStatement (paraOption f a)
  | .breakStatement n => .breakStatement n
  | .continueStatement n => .continueStatement n
  | .throwStatement a => .throwStatement (a, para f a)
  | .tryStatement b h z => .tryStatement (b, para f b) (paraOption f h) (paraOption f z)
  | .catchClause p b => .catchClause (paraOption f p) (b, para f b)
  | .labeledStatement n b => .labeledStatement n (b, para f b)
  | .importDeclaration ss s => .importDeclaration (paraList f ss) s
  | .importSpecifier x b => .importSpecifier x (b, para f b)
  | .importDefaultSpecifier b => .importDefaultSpecifier (b, para f b)
  | .importNamespaceSpecifier b => .importNamespaceSpecifier (b, para f b)
  | .exportNamedDeclaration d ss s => .exportNamedDeclaration (paraOption f d) (paraList f ss) s
  | .exportSpecifier b x => .exportSpecifier (b, para f b) x
  | .exportDefaultDeclaration d => .exportDefaultDeclaration (d, para f d)
  | .exportAllDeclaration x s => .exportAllDeclaration x s
  | .identifier n => .identifier n
  | .privateName n => .privateName n
  | .literal v => .literal v
  | .templateLiteral qs es => .templateLiteral qs (paraList f es)
  | .taggedTemplate t q => .taggedTemplate (t, para f t) (q, para f q)
  | .thisExpression => .thisExpression
  | .superExpression => .superExpression
  | .arrayExpression es => .arrayExpression (paraHoles f es)
  | .objectExpression ps => .objectExpression (paraList f ps)
  | .property k v j co s m => .property (k, para f k) (v, para f v) j co s m
  | .spreadElement a => .spreadElement (a, para f a)
  | .functionExpression g => .functionExpression (paraFunction f g)
  | .arrowFunction ps b e y => .arrowFunction (paraList f ps) (b, para f b) e y
  | .classExpression c => .classExpression (paraClass f c)
  | .classBody b => .classBody (paraList f b)
  | .methodDefinition k v j co t => .methodDefinition (k, para f k) (v, para f v) j co t
  | .propertyDefinition k v co t => .propertyDefinition (k, para f k) (paraOption f v) co t
  | .staticBlock b => .staticBlock (paraList f b)
  | .unaryExpression op a => .unaryExpression op (a, para f a)
  | .updateExpression op p a => .updateExpression op p (a, para f a)
  | .binaryExpression op l r => .binaryExpression op (l, para f l) (r, para f r)
  | .assignmentExpression op l r => .assignmentExpression op (l, para f l) (r, para f r)
  | .conditionalExpression t c a => .conditionalExpression (t, para f t) (c, para f c) (a, para f a)
  | .callExpression c args o => .callExpression (c, para f c) (paraList f args) o
  | .newExpression c args => .newExpression (c, para f c) (paraList f args)
  | .memberExpression o p k op => .memberExpression (o, para f o) (p, para f p) k op
  | .sequenceExpression es => .sequenceExpression (paraList f es)
  | .yieldExpression a d => .yieldExpression (paraOption f a) d
  | .awaitExpression a => .awaitExpression (a, para f a)
  | .metaProperty w => .metaProperty w
  | .importExpression s => .importExpression (s, para f s)
  | .objectPattern ps => .objectPattern (paraList f ps)
  | .arrayPattern es => .arrayPattern (paraHoles f es)
  | .restElement a => .restElement (a, para f a)
  | .assignmentPattern l r => .assignmentPattern (l, para f l) (r, para f r)
  | .removed => .removed

/-- A list of nodes, each beside its result. -/
def paraList {ρ : Type} (f : Nat → Span → Kind (Node × ρ) → ρ) : List Node → List (Node × ρ)
  | [] => []
  | n :: ns => (n, para f n) :: paraList f ns

/-- A node that may be missing, beside its result. -/
def paraOption {ρ : Type} (f : Nat → Span → Kind (Node × ρ) → ρ) : Option Node → Option (Node × ρ)
  | none => none
  | some n => some (n, para f n)

/-- A list of nodes with holes, each beside its result. -/
def paraHoles {ρ : Type} (f : Nat → Span → Kind (Node × ρ) → ρ) :
    List (Option Node) → List (Option (Node × ρ))
  | [] => []
  | n :: ns => paraOption f n :: paraHoles f ns

/-- A function with every child beside its result. -/
def paraFunction {ρ : Type} (f : Nat → Span → Kind (Node × ρ) → ρ) :
    Function Node → Function (Node × ρ)
  | ⟨name, params, body, isAsync, isGenerator⟩ =>
    ⟨paraOption f name, paraList f params, (body, para f body), isAsync, isGenerator⟩

/-- A class with every child beside its result. -/
def paraClass {ρ : Type} (f : Nat → Span → Kind (Node × ρ) → ρ) : Class Node → Class (Node × ρ)
  | ⟨name, parent, body⟩ => ⟨paraOption f name, paraOption f parent, (body, para f body)⟩

end

/-- Combines the results for the children at every node from the leaves up. -/
def fold {ρ : Type} (f : Nat → Span → Kind ρ → ρ) : Node → ρ :=
  para fun id span kind => f id span (kind.map (·.2))

/-- The node and all nodes below it, each in front of its children. -/
def nodes : Node → List Node :=
  para fun id span kind =>
    .mk id span (kind.map (·.1)) :: kind.children.flatMap fun (_, below) => below

end Node

end EsModule.Syntax
