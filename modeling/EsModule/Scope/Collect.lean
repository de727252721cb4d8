import EsModule.Scope.Reference
import EsModule.Scope.Tree

/-!
# What a node declares and writes

Every declaration has a place: the scope of the node itself, the nearest scope for blocks, that
outside the node, or the nearest scope for `var`. `declarations` lists the declarations that a node
makes for its own form, `writes` the identifiers that it assigns to, updates or deletes.
-/

namespace EsModule.Scope

open EsModule.Syntax

/-- Which scope receives a declaration. -/
inductive Place where
  /-- The innermost scope, which the declaring node opened if it opens one. -/
  | innermost
  /-- The nearest scope for block-scoped declarations. -/
  | block
  /-- The nearest such scope outside the scope that the declaring node opened. -/
  | outerBlock
  /-- The nearest scope for `var` declarations. -/
  | function
deriving DecidableEq

/-- One declaration of a name. -/
structure Declaration where
  /-- Which scope receives it. -/
  place : Place
  /-- How the name is declared. -/
  kind : BindingKind
  /-- The declared name. -/
  name : String
  /-- The number of the node that declares it. -/
  node : Nat
deriving DecidableEq

/-- The declarations of some identifiers by one node. -/
def declareAll (place : Place) (kind : BindingKind) (node : Node) (names : List Node) :
    List Declaration :=
  names.filterMap fun identifier => identifier.name?.map fun name => ⟨place, kind, name, node.id⟩

/-- The declaration of one name for an import. -/
def importedName? (specifier : Node) : Option Declaration :=
  match specifier.kind with
  | .importSpecifier _ name | .importDefaultSpecifier name | .importNamespaceSpecifier name =>
    name.name?.map fun name => ⟨.block, .imported, name, specifier.id⟩
  | _ => none

/-- The declarations of the parameters of a function, each made by the identifier itself. -/
def paramNames (params : List Node) : List Declaration :=
  (params.flatMap (·.boundIdentifiers)).filterMap fun identifier =>
    identifier.name?.map fun name => ⟨.innermost, .param, name, identifier.id⟩

/-- How the word of a variable declaration declares its names, and where. -/
def variableBinding : VariableKind → Place × BindingKind
  | .varKind => (.function, .varBinding)
  | .letKind => (.block, .letBinding)
  | .constKind => (.block, .constBinding)

/-- The declarations that a node makes, in the order in which they are made. The parameters of a
function expression come before its own name, so that a parameter of that name wins. -/
def declarations (n : Node) : List Declaration :=
  match n.kind with
  | .importDeclaration specifiers _ => specifiers.filterMap importedName?
  | .catchClause (some param) _ => declareAll .innermost .letBinding n param.boundIdentifiers
  | .variableDeclaration kind declarators =>
    let (place, binding) := variableBinding kind
    declarators.flatMap fun d => declareAll place binding d d.boundIdentifiers
  | .functionDeclaration f =>
    paramNames f.params ++ declareAll .outerBlock .hoisted n f.name.toList
  | .functionExpression f => paramNames f.params ++ declareAll .innermost .ownName n f.name.toList
  | .arrowFunction params _ _ _ => paramNames params
  | .classDeclaration c => declareAll .outerBlock .letBinding n c.name.toList
  | .classExpression c => declareAll .innermost .ownName n c.name.toList
  | _ => []

/-- The label of a labelled statement. -/
def label? (n : Node) : Option String :=
  match n.kind with
  | .labeledStatement label _ => some label
  | _ => none

/-- Whether a node is a variable declaration. -/
def isVariableDeclaration (n : Node) : Bool :=
  match n.kind with
  | .variableDeclaration .. => true
  | _ => false

/-- A node as a list if it is an identifier, else nothing. -/
def identifierOnly (n : Node) : List Node := if n.name?.isSome then [n] else []

/-- The identifiers that a node assigns to, updates or deletes. -/
def writes (n : Node) : List Node :=
  match n.kind with
  | .updateExpression _ _ argument | .unaryExpression .delete argument => identifierOnly argument
  | .assignmentExpression _ left _ => left.boundIdentifiers
  | .forInStatement left _ _ | .forOfStatement left _ _ _ =>
    if isVariableDeclaration left then [] else left.boundIdentifiers
  | _ => []

/-- Whether an identifier is a site where a value is read. Lists of exports name bindings without
reading them. -/
def isRead (node parent : Node) (grandparent : Option Node) : Bool :=
  match node.kind, parent.kind with
  | .identifier _, .exportSpecifier .. => false
  | .identifier _, _ => isReferenced node parent grandparent
  | _, _ => false

/-!
## The scopes of a module

One walk over the tree opens the scopes and makes the declarations, and writes down every site where
a name is used together with the scopes around it. Names are resolved only after the walk, when
every declaration is known, so a use may stand in front of the declaration.
-/

/-- Whether a site reads a name or writes it. -/
inductive Access where
  | read | write
deriving DecidableEq

/-- A site where a name is used. -/
structure Use where
  /-- The identifier. -/
  node : Nat
  /-- Its name. -/
  name : String
  /-- What is done with it. -/
  access : Access
  /-- The scopes around it, from the nearest outwards. -/
  chain : List Nat
  /-- The scopes of the functions whose parameter lists it stands in. -/
  params : List Nat
deriving DecidableEq

/-- What stands around a node. -/
structure Surroundings where
  /-- The node above it. -/
  parent : Option Node
  /-- The node above that one. -/
  grandparent : Option Node
  /-- The scopes around it, from the nearest outwards. -/
  chain : List Nat
  /-- The scopes of the functions whose parameter lists it stands in. -/
  params : List Nat

/-- What a walk has found so far. -/
structure Findings where
  /-- The scopes with their declarations. -/
  tree : ScopeTree
  /-- The sites where names are used, in the order of the walk. -/
  uses : Array Use

/-- The walk over a node and all below it. -/
abbrev Walk := Surroundings → Findings → Except Redeclaration Findings

/-- Which kind of scope a node opens. -/
def scopeKind : Kind Node → ScopeKind
  | .program _ => .program
  | .functionDeclaration _ | .functionExpression _ | .arrowFunction .. => .function
  | .staticBlock _ => .staticBlock
  | .catchClause .. => .catchClause
  | .switchStatement .. => .switch
  | .classDeclaration _ | .classExpression _ => .classBody
  | .forStatement .. | .forInStatement .. | .forOfStatement .. | .whileStatement ..
  | .doWhileStatement .. => .loop
  | _ => .block

/-- The scope that a place means for a node whose innermost scope heads a chain. -/
def ScopeTree.placed (t : ScopeTree) (chain : List Nat) : Place → Nat
  | .innermost => chain.headD 0
  | .block => t.blockParent chain
  | .outerBlock => t.blockParent chain.tail
  | .function => t.functionParent chain

/-- Makes the declarations of a node. -/
def ScopeTree.declareNode (t : ScopeTree) (chain : List Nat) (n : Node) :
    Except Redeclaration ScopeTree :=
  (declarations n).foldlM (fun t d => t.declare (t.placed chain d.place) d.kind d.name d.node) t

/-- Registers the label of a node. -/
def ScopeTree.labelNode (t : ScopeTree) (chain : List Nat) (n : Node) : ScopeTree :=
  match label? n with
  | some name => t.label (t.blockParent chain) name n.id
  | none => t

/-- The uses that a node makes by itself. -/
def usesOf (n : Node) (here : Surroundings) : List Use :=
  let use (access : Access) (identifier : Node) : Option Use :=
    identifier.name?.map fun name => ⟨identifier.id, name, access, here.chain, here.params⟩
  let isRead := here.parent.any fun parent => isRead n parent here.grandparent
  (if isRead then (use .read n).toList else []) ++ (writes n).filterMap (use .write)

/-- Walks over nodes one after the other. -/
def walkAll (children : List (Node × Walk)) : Walk := fun here found =>
  children.foldlM (fun found (_, walk) => walk here found) found

/-- The walk over a node, from the walks over its children. -/
def Walk.ofKind (id : Nat) (span : Span) (kind : Kind (Node × Walk)) : Walk := fun here found => do
  let n := Node.mk id span (kind.map (·.1))
  let opens := here.parent.isSome && opensScope n here.parent
  let chain := if opens then found.tree.scopes.size :: here.chain else here.chain
  let opened :=
    if opens then found.tree.openScope id (scopeKind n.kind) here.chain else found.tree
  let tree ← (opened.labelNode chain n).declareNode chain n
  let here := { here with chain }
  let found : Findings := ⟨tree, found.uses ++ usesOf n here⟩
  let below : Surroundings := ⟨some n, here.parent, chain, here.params⟩
  let paramList := { below with params := chain.headD 0 :: below.params }
  match kind with
  | .functionDeclaration f | .functionExpression f =>
    let found ← walkAll f.name.toList below found
    walkAll [f.body] below (← walkAll f.params paramList found)
  | .arrowFunction params body _ _ =>
    walkAll [body] below (← walkAll params paramList found)
  | kind => walkAll kind.children below found

/-- Records a use with the binding that its name resolves to, or as a global. -/
def ScopeTree.recordUse (t : ScopeTree) (use : Use) : ScopeTree :=
  match t.resolve use.chain use.name use.params, use.access with
  | some (scope, _), .read =>
    t.modifyBinding scope use.name fun b => { b with references := addOnce use.node b.references }
  | some (scope, _), .write =>
    t.modifyBinding scope use.name fun b => { b with mutations := addOnce use.node b.mutations }
  | none, _ => { t with globals := addOnce use.node t.globals }

/-- The scopes and the use sites of a tree, before any name is resolved. -/
def findings (root : Node) : Except Redeclaration Findings :=
  root.para Walk.ofKind ⟨none, none, [0], []⟩ ⟨.ofRoot root.id, #[]⟩

/-- The scopes of a tree with all names resolved. -/
def collect (root : Node) : Except Redeclaration ScopeTree := do
  let found ← findings root
  return found.uses.foldl ScopeTree.recordUse found.tree

end EsModule.Scope
