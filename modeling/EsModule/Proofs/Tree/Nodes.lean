import EsModule.Syntax.Node

/-!
# The nodes of a tree

`Node.para` is defined by recursion through every shape in which a kind holds its children. All of
that amounts to one equation, `Node.para_eq`: the result for a node is the function applied to the
kind of the node with every child beside the child's own result.

The children of a node are nodes of smaller trees, so whatever passes from the children of a node to
the node holds of every node (`Node.induct`). A kind is known by what it does with its children:
two functions that agree on the children map the kind to the same kind.
-/

namespace EsModule.Syntax

namespace Node

section

variable {ρ : Type} (f : Nat → Span → Kind (Node × ρ) → ρ)

theorem paraList_eq (ns : List Node) : paraList f ns = ns.map fun n => (n, para f n) := by
  induction ns with
  | nil => rfl
  | cons n ns ih => simp [paraList, ih]

theorem paraOption_eq (n : Option Node) : paraOption f n = n.map fun n => (n, para f n) := by
  cases n <;> rfl

theorem paraHoles_eq (ns : List (Option Node)) :
    paraHoles f ns = ns.map (·.map fun n => (n, para f n)) := by
  induction ns with
  | nil => rfl
  | cons n ns ih => simp [paraHoles, paraOption_eq, ih]

theorem paraFunction_eq (g : Function Node) :
    paraFunction f g = g.map fun n => (n, para f n) := by
  cases g
  simp [paraFunction, Function.map, paraOption_eq, paraList_eq]

theorem paraClass_eq (c : Class Node) : paraClass f c = c.map fun n => (n, para f n) := by
  cases c
  simp [paraClass, Class.map, paraOption_eq]

theorem paraKind_eq (k : Kind Node) : paraKind f k = k.map fun n => (n, para f n) := by
  cases k <;>
    simp [paraKind, Kind.map, paraList_eq, paraOption_eq, paraHoles_eq, paraFunction_eq,
      paraClass_eq]

/-- What `para` gives for a node, from what it gives for the children. -/
theorem para_eq (n : Node) :
    para f n = f n.id n.span (n.kind.map fun child => (child, para f child)) := by
  cases n
  simp [para, paraKind_eq, id, span, kind]

end

end Node

section

variable {α β γ : Type}

theorem Kind.children_map (f : α → β) (k : Kind α) : (k.map f).children = k.children.map f := by
  cases k <;>
    simp [Kind.map, Kind.children, Function.map, Function.children, Class.map, Class.children,
      List.map_filterMap, List.filterMap_map, Option.toList_map]

theorem Kind.map_map (f : α → β) (g : β → γ) (k : Kind α) :
    (k.map f).map g = k.map fun a => g (f a) := by
  cases k <;> simp [Kind.map, Function.map, Class.map, Function.comp_def]

theorem Kind.map_id' (k : Kind α) : (k.map fun a => a) = k := by
  cases k <;> simp [Kind.map, Function.map, Class.map]

theorem optionMap_congr {f g : α → β} {o : Option α} (h : ∀ a, o = some a → f a = g a) :
    o.map f = o.map g := by
  cases o with
  | none => rfl
  | some a => exact congrArg some (h a rfl)

theorem Kind.map_congr {f g : α → β} {k : Kind α} (h : ∀ a ∈ k.children, f a = g a) :
    k.map f = k.map g := by
  cases k <;>
    simp_all [Kind.map, Kind.children, Function.map, Function.children, Class.map, Class.children]
  all_goals grind [optionMap_congr]

end

namespace Node

theorem nodes_eq (n : Node) : n.nodes = n :: n.kind.children.flatMap nodes := by
  rw [nodes, para_eq, Kind.map_map, Kind.map_id', Kind.children_map, List.flatMap_map]
  cases n
  rfl

theorem eq_mk (n : Node) : n = .mk n.id n.span n.kind := by
  cases n
  rfl

/-- What holds of a node and of all that stands below its children holds of all its nodes. -/
theorem forall_nodes {P : Node → Prop} {n : Node} (h : P n)
    (hbelow : ∀ c ∈ n.kind.children, ∀ m ∈ c.nodes, P m) : ∀ m ∈ n.nodes, P m := by
  intro m hm
  rw [nodes_eq, List.mem_cons, List.mem_flatMap] at hm
  rcases hm with rfl | ⟨c, hc, hm⟩
  · exact h
  · exact hbelow c hc m hm

theorem mem_nodes_self (n : Node) : n ∈ n.nodes := by
  rw [nodes_eq]
  exact List.mem_cons_self

theorem mem_nodes_of_child {n c m : Node} (hc : c ∈ n.kind.children) (hm : m ∈ c.nodes) :
    m ∈ n.nodes := by
  rw [nodes_eq]
  exact List.mem_cons_of_mem _ (List.mem_flatMap.mpr ⟨c, hc, hm⟩)

/-- A child has fewer nodes below it. -/
theorem length_nodes_lt {n c : Node} (h : c ∈ n.kind.children) :
    c.nodes.length < n.nodes.length := by
  rw [nodes_eq n, List.length_cons]
  have hle := (List.sublist_flatten_of_mem (List.mem_map_of_mem (f := nodes) h)).length_le
  rw [List.flatMap_def]
  omega

/-- What passes from the children of a node to the node holds of every node. -/
theorem induct {P : Node → Prop} (h : ∀ n : Node, (∀ c ∈ n.kind.children, P c) → P n) (n : Node) :
    P n := by
  have hsize : ∀ k (n : Node), n.nodes.length ≤ k → P n := by
    intro k
    induction k with
    | zero =>
      intro n hn
      rw [nodes_eq] at hn
      cases hn
    | succ k ih =>
      intro n hn
      refine h n fun c hc => ih c ?_
      have := length_nodes_lt hc
      omega
  exact hsize _ n (Nat.le_refl _)

end Node

end EsModule.Syntax
