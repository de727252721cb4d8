import EsModule.Syntax.Node
import EsModule.Syntax.Pattern

/-!
# Kinds of nodes and places of names

Questions such as "may this node own a scope?" cut across the kinds of nodes. Each of them is a
`Category`, and `Category.holds` says which kinds belong to it.
-/

namespace EsModule.Scope

open EsModule.Syntax

/-- A set of kinds of nodes that scopes treat alike. -/
inductive Category where
  /-- Nodes that may own a scope. -/
  | scopable
  /-- Owners of scopes that hold block-scoped declarations. -/
  | blockParent
  /-- Owners of scopes that hold `var` declarations. -/
  | functionParent
  /-- Functions, as statements, as expressions and with an arrow. -/
  | function
  /-- Statements that declare names. -/
  | declaration
  /-- Declarations of the block around them. -/
  | blockScoped
  /-- Loops over the keys or the values of something. -/
  | itemLoop
  /-- Targets that take a value apart or have a default. -/
  | pattern
  /-- Exports of every form. -/
  | exportDeclaration
  /-- Nodes that may assign to a name. -/
  | rebinding
deriving DecidableEq

namespace Category

/-- All categories. -/
def all : List Category :=
  [.scopable, .blockParent, .functionParent, .function, .declaration, .blockScoped, .itemLoop,
   .pattern, .exportDeclaration, .rebinding]

end Category

/-! ## The kinds of each category -/

section

variable {α : Type}

/-- Whether a kind is a function. -/
def isFunction : Kind α → Bool
  | .functionDeclaration _ | .functionExpression _ | .arrowFunction .. => true
  | _ => false

/-- Whether a kind is a class. -/
def isClass : Kind α → Bool
  | .classDeclaration _ | .classExpression _ => true
  | _ => false

/-- Whether nodes of a kind may own a scope. -/
def isScopable (kind : Kind α) : Bool :=
  match kind with
  | .program _ | .blockStatement _ | .catchClause .. | .doWhileStatement .. | .whileStatement ..
  | .forStatement .. | .forInStatement .. | .forOfStatement .. | .switchStatement ..
  | .staticBlock _ => true
  | _ => isClass kind || isFunction kind

/-- Whether the scope of such a node holds `var` declarations. -/
def isFunctionParent (kind : Kind α) : Bool :=
  match kind with
  | .staticBlock _ => true
  | _ => isFunction kind

/-- Whether a kind is an export. -/
def isExport : Kind α → Bool
  | .exportNamedDeclaration .. | .exportDefaultDeclaration _ | .exportAllDeclaration .. => true
  | _ => false

/-- Whether a kind is a loop over items. -/
def isItemLoop : Kind α → Bool
  | .forInStatement .. | .forOfStatement .. => true
  | _ => false

/-- Whether a kind is a declaration of the block around it. -/
def isBlockScoped : Kind α → Bool
  | .functionDeclaration _ | .classDeclaration _ => true
  | .variableDeclaration kind _ => kind != .varKind
  | _ => false

/-- Whether a kind belongs to a category. -/
def Category.holds (kind : Kind α) : Category → Bool
  | .scopable => isScopable kind
  | .blockParent => isScopable kind && !isClass kind
  | .functionParent => isFunctionParent kind
  | .function => isFunction kind
  | .declaration =>
    match kind with
    | .functionDeclaration _ | .variableDeclaration .. | .classDeclaration _
    | .importDeclaration .. => true
    | _ => isExport kind
  | .blockScoped => isBlockScoped kind
  | .itemLoop => isItemLoop kind
  | .pattern =>
    match kind with
    | .objectPattern _ | .arrayPattern _ | .assignmentPattern .. => true
    | _ => false
  | .exportDeclaration => isExport kind
  | .rebinding =>
    match kind with
    | .assignmentExpression .. | .updateExpression .. => true
    | .unaryExpression operator _ => operator == .delete
    | _ => isItemLoop kind

/-- The categories that a kind belongs to. -/
def categories (kind : Kind α) : List Category := Category.all.filter (·.holds kind)

end

end EsModule.Scope

/-!
## Names and where they stand

An identifier is read as a value in some places and names something else in others: the member of an
object, the key of a property, a variable that is being declared. `isReferenced` tells which from
the two nodes around it. `Node.boundIdentifiers` gives the identifiers that a target binds, and
`opensScope` says which nodes begin a scope.
-/

namespace EsModule.Syntax

/-- What a node binds as a target, and what it binds as a member of an object that is taken
apart. -/
structure Bound where
  /-- The identifiers that it binds as a target. -/
  target : List Node
  /-- The identifiers that it binds as a member of an object pattern. -/
  member : List Node

/-- What a node binds, from what its children bind. -/
def Bound.ofKind (id : Nat) (span : Span) (kind : Kind (Node × Bound)) : Bound :=
  let target :=
    match kind with
    | .identifier name => [Node.mk id span (.identifier name)]
    | .objectPattern members => members.flatMap fun (_, member) => member.member
    | .arrayPattern elements => elements.flatMap fun element => element.elim [] (·.2.target)
    | .restElement (_, argument) => argument.target
    | .assignmentPattern (_, left) _ => left.target
    | .variableDeclaration _ ds => ds.flatMap fun (_, d) => d.target
    | .variableDeclarator (_, target) _ => target.target
    | .functionDeclaration ⟨name, _, _, _, _⟩ => (name.map (·.1)).toList
    | .classDeclaration ⟨name, _, _⟩ => (name.map (·.1)).toList
    | _ => []
  match kind with
  | .property _ (_, value) _ _ _ _ => ⟨target, value.target⟩
  | _ => ⟨target, target⟩

/-- The identifiers that a target or a declaration binds, in source order. Members of values bind
nothing. -/
def Node.boundIdentifiers (n : Node) : List Node := (n.para Bound.ofKind).target

end EsModule.Syntax

namespace EsModule.Scope

open EsModule.Syntax

/-- Whether a node begins a scope of its own. The block of a function or of a catch clause shares
the scope of its owner. -/
def opensScope (node : Node) (parent : Option Node) : Bool :=
  match node.kind, parent with
  | .blockStatement _, some parent =>
    match parent.kind with
    | .catchClause .. => false
    | kind => !isFunction kind
  | kind, _ => isScopable kind

/-- Whether two nodes are one and the same. -/
def same (a b : Node) : Bool := a.id == b.id

/-- Whether an identifier is read as a value where it stands. -/
def isReferenced (node parent : Node) (grandparent : Option Node) : Bool :=
  match parent.kind with
  | .memberExpression object property computed _ =>
    if same property node then computed else same object node
  | .variableDeclarator _ init => init.any (same · node)
  | .arrowFunction _ body _ _ => same body node
  | .property key _ _ computed _ _ =>
    if same key node then computed
    else
      match grandparent.map Node.kind with
      | some (.objectPattern _) => false
      | _ => true
  | .methodDefinition key _ _ computed _ | .propertyDefinition key _ computed _ =>
    !same key node || computed
  | .classDeclaration definition | .classExpression definition =>
    definition.parent.any (same · node)
  | .assignmentExpression _ _ right | .assignmentPattern _ right => same right node
  | .exportSpecifier binding _ =>
    match grandparent.map Node.kind with
    | some (.exportNamedDeclaration _ _ (some _)) => false
    | _ => same binding node
  | .catchClause .. | .restElement _ | .functionDeclaration _ | .functionExpression _
  | .importSpecifier .. | .importDefaultSpecifier _ | .importNamespaceSpecifier _
  | .objectPattern _ | .arrayPattern _ => false
  | _ => true

end EsModule.Scope
