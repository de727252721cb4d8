import EsModule.Syntax.NodeTable

/-!
# Patches

A tree is never changed while it is still being read. What is to be changed is noted in patches that
name their nodes by number, and the patches are applied at the end, stage by stage: an identifier
inside a statement that is later taken out or unwrapped has its new form by then.
-/

namespace EsModule.Compile

open EsModule.Syntax

/-- One change of a node. -/
inductive Patch where
  /-- Gives the node another kind. Nodes in that kind that the tree has already are those of the
  tree, whatever other patches make of them. -/
  | replace (target : Nat) (kind : Kind Node)
  /-- Moves the kind of `inner` into the node around it. -/
  | unwrap (target inner : Nat)
  /-- Turns the declaration of a function or class into the expression. -/
  | intoExpression (target : Nat)
  /-- Takes the node out. -/
  | remove (target : Nat)

/-- The expression that defines what a declaration of a function or class defines. -/
def asExpression {α : Type} : Kind α → Kind α
  | .functionDeclaration f => .functionExpression f
  | .classDeclaration c => .classExpression c
  | kind => kind

/-- Applies a patch to a table. -/
def Patch.apply (t : NodeTable) : Patch → NodeTable
  | .replace target kind =>
    (kind.children.foldl NodeTable.add t).setKind target (kind.map Node.id)
  | .unwrap target inner => (t.setKind target (t.kind inner)).setKind inner .removed
  | .intoExpression target => t.setKind target (asExpression (t.kind target))
  | .remove target => t.setKind target .removed

/-- When a patch is applied. -/
inductive Stage where
  /-- First: new forms of identifiers. -/
  | identifier
  /-- Then: statements that become declarations. -/
  | declaration
  /-- Last: statements that are taken out. -/
  | removal
deriving DecidableEq

/-- Patches that wait to be applied, by stage and in the order in which they came. -/
structure PatchQueue where
  /-- The patches of the first stage. -/
  identifiers : List Patch
  /-- The patches of the second stage. -/
  declarations : List Patch
  /-- The patches of the last stage. -/
  removals : List Patch

namespace PatchQueue

/-- The queue without patches. -/
def empty : PatchQueue := ⟨[], [], []⟩

/-- A queue with a patch added to a stage. -/
def push (q : PatchQueue) (patch : Patch) : Stage → PatchQueue
  | .identifier => { q with identifiers := q.identifiers ++ [patch] }
  | .declaration => { q with declarations := q.declarations ++ [patch] }
  | .removal => { q with removals := q.removals ++ [patch] }

/-- The patches in the order in which they are applied. -/
def patches (q : PatchQueue) : List Patch := q.identifiers ++ q.declarations ++ q.removals

/-- The number of patches. -/
def size (q : PatchQueue) : Nat := q.patches.length

/-- Whether no patch waits. -/
def isEmpty (q : PatchQueue) : Bool := q.patches.isEmpty

/-- The tree with all patches applied. -/
def apply (q : PatchQueue) (root : Node) : Node :=
  (q.patches.foldl Patch.apply (.ofTree root)).tree root.id

end PatchQueue

end EsModule.Compile
