import EsModule.Syntax.Node

/-!
# New nodes

Nodes that no source text stands behind have an empty span at the start of the source. They are made
one after the other from a supply of numbers, so that no two of them have the same number.
-/

namespace EsModule.Syntax

/-- A computation that makes new nodes. Its state is the next number. -/
abbrev Supply := StateM Nat

/-- A number above those of all nodes of a tree. -/
def Node.numberBound (n : Node) : Nat := n.nodes.foldl (fun bound m => max bound (m.id + 1)) 0

namespace Supply

/-- A new node. -/
def node (kind : Kind Node) : Supply Node := fun next => (.mk next ⟨0, 0⟩ kind, next + 1)

/-- A new identifier. -/
def identifier (name : String) : Supply Node := node (.identifier name)

/-- A new string. -/
def string (value : String) : Supply Node := node (.literal (.string value none))

/-- The kind of a call of a function known by its name. -/
def call (callee : String) (arguments : List Node) : Supply (Kind Node) := do
  return .callExpression (← identifier callee) arguments false

/-- The statement that calls a function known by its name. -/
def callStatement (callee : String) (arguments : List Node) : Supply Node := do
  node (.expressionStatement (← node (← call callee arguments)))

/-- The kind of the declaration of a constant. -/
def constant (name : String) (value : Node) : Supply (Kind Node) := do
  let declarator ← node (.variableDeclarator (← identifier name) (some value))
  return .variableDeclaration .constKind [declarator]

end Supply

end EsModule.Syntax
