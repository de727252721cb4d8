/-!
# Scopes and bindings

The scopes of a module are kept in the order in which they are opened, and a scope is known by its
place in that order. Every scope also holds the chain of the scopes around it, from the nearest
outwards, so a name is resolved by going through a list.

Nodes are known by their numbers. A binding records the nodes that read it and those that write it.
-/

namespace EsModule

namespace Scope

/-! ## Bindings -/

/-- How a name was declared. -/
inductive BindingKind where
  /-- By `var`. -/
  | varBinding
  /-- By `let`, by a class declaration or as the parameter of a catch clause. -/
  | letBinding
  /-- By `const`. -/
  | constBinding
  /-- By an import. -/
  | imported
  /-- By a function declaration. -/
  | hoisted
  /-- As a parameter of a function. -/
  | param
  /-- As the own name of a function expression or class expression. -/
  | ownName
  /-- In a way that no other kind describes. -/
  | unknown
deriving DecidableEq

namespace BindingKind

/-- All kinds of bindings. -/
def all : List BindingKind :=
  [.varBinding, .letBinding, .constBinding, .imported, .hoisted, .param, .ownName, .unknown]

/-- The word for a kind of binding. -/
def text : BindingKind → String
  | .varBinding => "var"
  | .letBinding => "let"
  | .constBinding => "const"
  | .imported => "module"
  | .hoisted => "hoisted"
  | .param => "param"
  | .ownName => "local"
  | .unknown => "unknown"

/-- Whether no other declaration of the name may share the scope. -/
def isLexical : BindingKind → Bool
  | .letBinding | .constBinding | .imported => true
  | _ => false

/-- Whether the parameter list of a function sees a binding of the function's scope. -/
def seenByParams : BindingKind → Bool
  | .param | .ownName => true
  | _ => false

end BindingKind

/-- A declared name. -/
structure Binding where
  /-- How it was declared. -/
  kind : BindingKind
  /-- The node that declared it. -/
  node : Nat
  /-- The identifiers that read it. -/
  references : List Nat
  /-- The identifiers that assign to it, update it or delete it. -/
  mutations : List Nat
deriving DecidableEq

/-- Whether a node reads or writes a binding. -/
def Binding.isUsedBy (b : Binding) (node : Nat) : Bool :=
  b.references.contains node || b.mutations.contains node

/-! ## Scopes -/

/-- What kind of node owns a scope. -/
inductive ScopeKind where
  | program | function | staticBlock | block | catchClause | loop | switch | classBody
deriving DecidableEq

namespace ScopeKind

/-- Whether a scope of this kind receives `var` declarations. -/
def isFunctionParent : ScopeKind → Bool
  | .function | .staticBlock => true
  | _ => false

/-- Whether a scope of this kind receives block-scoped declarations. -/
def isBlockParent (k : ScopeKind) : Bool := k != .classBody

end ScopeKind

end Scope

/-- One scope. -/
structure Scope where
  /-- The node that opened it. -/
  node : Nat
  /-- What kind of node that is. -/
  kind : Scope.ScopeKind
  /-- The scopes around it, from the nearest outwards. -/
  enclosing : List Nat
  /-- The names declared in it, in the order of their first declarations. -/
  bindings : List (String × Scope.Binding)
  /-- The labelled statements in it. -/
  labels : List (String × Nat)
deriving DecidableEq

namespace Scope

/-- A name that was declared twice although one declaration allows no other. -/
structure Redeclaration where
  /-- The name. -/
  name : String
deriving DecidableEq

/-- An association list with a function applied to the value of one key. -/
def modifyKey {β : Type} (f : β → β) (key : String) : List (String × β) → List (String × β)
  | [] => []
  | (k, b) :: rest => if k = key then (k, f b) :: rest else (k, b) :: modifyKey f key rest

/-- An association list with the value of one key set, at its place or at the end. -/
def setKey {β : Type} (key : String) (value : β) : List (String × β) → List (String × β)
  | [] => [(key, value)]
  | (k, b) :: rest => if k = key then (k, value) :: rest else (k, b) :: setKey key value rest

/-- A list with an item at its end unless it is there already. -/
def addOnce (n : Nat) (ns : List Nat) : List Nat := if ns.contains n then ns else ns ++ [n]

/-- The binding of a name that is declared in the scope itself. -/
def binding? (s : Scope) (name : String) : Option Binding := s.bindings.lookup name

/-- Declares a name. Declaring it by the same node again changes nothing, and neither does any
declaration beside a parameter. Otherwise two declarations of one name need that none of them is
lexical, and the first one stays. -/
def declare (s : Scope) (kind : BindingKind) (name : String) (node : Nat) :
    Except Redeclaration Scope :=
  match s.binding? name with
  | none => .ok { s with bindings := s.bindings ++ [(name, ⟨kind, node, [], []⟩)] }
  | some held =>
    if held.node = node || held.kind = .param then .ok s
    else if held.kind.isLexical || kind.isLexical then .error ⟨name⟩
    else .ok s

/-! ## All scopes of a module -/

/-- The scopes of a module. -/
structure ScopeTree where
  /-- All scopes, each behind those around it. The first one is the program's. -/
  scopes : Array Scope
  /-- The identifiers that no binding was found for. -/
  globals : List Nat
deriving DecidableEq

namespace ScopeTree

/-- The scopes of a module of which nothing but the root is known. -/
def ofRoot (node : Nat) : ScopeTree := ⟨#[⟨node, .program, [], [], []⟩], []⟩

/-- A scope and those around it, from the scope itself outwards. -/
def chain (t : ScopeTree) (scope : Nat) : List Nat :=
  scope :: (t.scopes[scope]?.map (·.enclosing)).getD []

/-- Opens a scope inside a chain of scopes. -/
def openScope (t : ScopeTree) (node : Nat) (kind : ScopeKind) (enclosing : List Nat) : ScopeTree :=
  { t with scopes := t.scopes.push ⟨node, kind, enclosing, [], []⟩ }

/-- Whether a scope is of a kind that a test accepts. -/
def scopeSatisfies (t : ScopeTree) (test : ScopeKind → Bool) (scope : Nat) : Bool :=
  t.scopes[scope]?.any fun s => test s.kind

/-- The nearest scope of a chain that receives `var` declarations, or else the program's. -/
def functionParent (t : ScopeTree) (chain : List Nat) : Nat :=
  (chain.find? (t.scopeSatisfies ScopeKind.isFunctionParent)).getD 0

/-- The nearest scope of a chain that receives block-scoped declarations, or else the program's. -/
def blockParent (t : ScopeTree) (chain : List Nat) : Nat :=
  (chain.find? (t.scopeSatisfies ScopeKind.isBlockParent)).getD 0

/-- Declares a name in a scope. -/
def declare (t : ScopeTree) (scope : Nat) (kind : BindingKind) (name : String) (node : Nat) :
    Except Redeclaration ScopeTree :=
  match t.scopes[scope]? with
  | none => .ok t
  | some s => do
    let s ← s.declare kind name node
    return { t with scopes := t.scopes.setIfInBounds scope s }

/-- Names a statement by a label. A later label of the same name replaces an earlier one. -/
def label (t : ScopeTree) (scope : Nat) (name : String) (node : Nat) : ScopeTree :=
  { t with scopes := t.scopes.modify scope fun s => { s with labels := setKey name node s.labels } }

/-- The binding of a name in a scope, if the parameter lists of the functions that own the scopes
`params` can see it. -/
def visible? (t : ScopeTree) (params : List Nat) (name : String) (scope : Nat) :
    Option (Nat × Binding) := do
  let s ← t.scopes[scope]?
  let b ← s.binding? name
  if params.contains scope && !b.kind.seenByParams then none else some (scope, b)

/-- The binding that a name resolves to from the innermost scope of a chain, and the scope of the
binding. The site stands in the parameter lists of the functions that own the scopes `params`. -/
def resolve (t : ScopeTree) (chain : List Nat) (name : String) (params : List Nat) :
    Option (Nat × Binding) :=
  chain.findSome? (t.visible? params name)

/-- Changes the binding of a name in a scope. -/
def modifyBinding (t : ScopeTree) (scope : Nat) (name : String) (f : Binding → Binding) :
    ScopeTree :=
  let changed (s : Scope) : Scope := { s with bindings := modifyKey f name s.bindings }
  { t with scopes := t.scopes.modify scope changed }

end ScopeTree

end Scope

end EsModule
