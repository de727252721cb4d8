import EsModule.Syntax.Node
import Std.Data.TreeMap.Basic

/-!
# Trees as tables

For changes, a tree is laid out as a table from the numbers of its nodes to their spans and kinds,
where a kind holds the numbers of the children. A node is then changed without going down to it, and
what points at its number sees the change.
-/

namespace EsModule.Syntax

/-- What a table holds for a node. -/
structure NodeEntry where
  /-- The source text that the node was read from. -/
  span : Span
  /-- Its kind, with the numbers of its children. -/
  kind : Kind Nat

/-- Nodes by their numbers. -/
structure NodeTable where
  /-- The entries of all nodes. -/
  entries : Std.TreeMap Nat NodeEntry

/-- The entry of a node. -/
def Node.entry (n : Node) : NodeEntry := ⟨n.span, n.kind.map Node.id⟩

namespace NodeTable

/-- The table without nodes. -/
def empty : NodeTable := ⟨∅⟩

/-- A table with the nodes of a tree added. A node that the table has already stays as it is
there. -/
def add (t : NodeTable) (tree : Node) : NodeTable :=
  ⟨tree.nodes.foldl (fun entries n => entries.insertIfNew n.id n.entry) t.entries⟩

/-- The table of a tree. -/
def ofTree (tree : Node) : NodeTable := empty.add tree

/-- The kind of a node. Nodes outside the table count as removed. -/
def kind (t : NodeTable) (id : Nat) : Kind Nat := (t.entries[id]?.map (·.kind)).getD .removed

/-- A table with another kind for a node. -/
def setKind (t : NodeTable) (id : Nat) (kind : Kind Nat) : NodeTable :=
  ⟨t.entries.modify id fun e => { e with kind }⟩

/-- The tree below a node down to a depth, where everything counts as removed. -/
def treeToDepth (t : NodeTable) : Nat → Nat → Node
  | 0, id => .mk id ⟨0, 0⟩ .removed
  | depth + 1, id =>
    match t.entries[id]? with
    | none => .mk id ⟨0, 0⟩ .removed
    | some e => .mk id e.span (e.kind.map (t.treeToDepth depth))

/-- The tree below a node. No path without a repetition is longer than the table. -/
def tree (t : NodeTable) (root : Nat) : Node := t.treeToDepth t.entries.size root

end NodeTable

end EsModule.Syntax
